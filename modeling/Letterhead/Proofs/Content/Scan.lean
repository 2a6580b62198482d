import Letterhead.Content.Segment
import Letterhead.Proofs.Content.Line
import Letterhead.Proofs.Text.Lines

/-! One step of a scan. A line continues the open block or it does not; if it does not, the open block
is finished and the line is taken by its own kind. Blocks finished before never matter again, and no
line needs a look at the next one. -/
namespace Letterhead
open Line

def Line.Kind.opened : Kind → OpenBlock
  | .drawn l => .diagram [l] 0
  | .row cs => .table [cs]
  | .bullet i => .bullets [i]
  | .numbered i => .numbered [i]
  | .plain l => .paragraph [l]
  | .heading _ _ | .blank => .none

def Line.Kind.emitted : Kind → List Block
  | .heading k t => [.heading k t]
  | _ => []

/-- The open block after a line of its own kind. Rows and drawn lines are not added this way. -/
def Line.Kind.join? : Kind → OpenBlock → Option OpenBlock
  | .plain l, .paragraph ls => some (.paragraph (l :: ls))
  | .bullet i, .bullets is => some (.bullets (i :: is))
  | .numbered i, .numbered is => some (.numbered (i :: is))
  | _, _ => none

theorem Line.Kind.reverse_emitted (k : Kind) : k.emitted.reverse = k.emitted := by
  cases k <;> rfl

namespace OpenBlock

def extend? (o : OpenBlock) (raw : Text) : Option OpenBlock :=
  match o with
  | .table rows =>
    if isSeparator raw then some (.table rows)
    else if isRow raw then some (.table (cells raw :: rows))
    else Option.none
  | .diagram ls blanks =>
    if raw.trimRight.isEmpty && diagramIndent ≤ indent raw then some (.diagram ls (blanks + 1))
    else if isDiagram raw.trimRight then
      some (.diagram (raw.trimRight :: List.replicate blanks [] ++ ls) 0)
    else Option.none
  | o => (kind raw).join? o

inductive Extends (raw : Text) : OpenBlock → OpenBlock → Prop where
  | line {ls : List Text} {l : Text} (h : kind raw = .plain l) :
      Extends raw (.paragraph ls) (.paragraph (l :: ls))
  | bullet {is : List Text} {i : Text} (h : kind raw = .bullet i) :
      Extends raw (.bullets is) (.bullets (i :: is))
  | numbered {is : List Text} {i : Text} (h : kind raw = .numbered i) :
      Extends raw (.numbered is) (.numbered (i :: is))
  | rule {rows : List (List Text)} (h : isSeparator raw = true) :
      Extends raw (.table rows) (.table rows)
  | row {rows : List (List Text)} (hs : isSeparator raw = false) (h : isRow raw = true) :
      Extends raw (.table rows) (.table (cells raw :: rows))
  | gap {ls : List Text} {n : Nat} (h : raw.trimRight = []) :
      Extends raw (.diagram ls n) (.diagram ls (n + 1))
  | drawn {ls : List Text} {n : Nat} (h : isDiagram raw.trimRight = true) :
      Extends raw (.diagram ls n) (.diagram (raw.trimRight :: List.replicate n [] ++ ls) 0)

theorem extends_of_join? {o o' : OpenBlock} {raw : Text} (h : (kind raw).join? o = some o') :
    Extends raw o o' := by
  unfold Kind.join? at h
  split at h
  · next hk => exact Option.some.inj h ▸ .line hk
  · next hk => exact Option.some.inj h ▸ .bullet hk
  · next hk => exact Option.some.inj h ▸ .numbered hk
  · simp at h

theorem extends_of_extend? {o o' : OpenBlock} {raw : Text} (h : o.extend? raw = some o') :
    Extends raw o o' := by
  cases o with
  | none => exact extends_of_join? h
  | paragraph ls => exact extends_of_join? h
  | bullets is => exact extends_of_join? h
  | numbered is => exact extends_of_join? h
  | table rows =>
    simp only [extend?] at h
    split at h
    · next hs => exact Option.some.inj h ▸ .rule hs
    next hs =>
    split at h
    · next hr => exact Option.some.inj h ▸ .row (by simpa using hs) hr
    · simp at h
  | diagram ls n =>
    simp only [extend?] at h
    split at h
    · next hb =>
      rw [Bool.and_eq_true, List.isEmpty_iff] at hb
      exact Option.some.inj h ▸ .gap hb.1
    split at h
    · next hd => exact Option.some.inj h ▸ .drawn hd
    · simp at h

/-- At most one block is open. -/
theorem reverse_close (o : OpenBlock) : o.close.reverse = o.close := by
  cases o <;> rfl

end OpenBlock

namespace Scan

def turn (s : Scan) (k : Kind) : Scan :=
  { s with done := k.emitted ++ (s.current.close ++ s.done), current := k.opened }

/-- A line that continues no table and no diagram is told by its kind alone. -/
theorem begin_eq_of_kind (s : Scan) (raw : Text) :
    s.begin raw =
      match kind raw with
      | .drawn l => s.reopen (.diagram [l] 0)
      | .row cs => s.reopen (.table [cs])
      | .heading k t => s.close.emit (.heading k t)
      | .bullet i => s.addBullet i
      | .numbered i => s.addNumbered i
      | .plain l => s.addLine l
      | .blank => s.close := by
  unfold begin kind
  simp only [isRow_trimRight, cells_trimRight]
  split
  · rfl
  split
  · rfl
  split
  · next k t hh => simp only [hh]
  · next hh =>
    split
    · next i hb => simp only [hh, hb]
    · next hb =>
      split
      · next i hn => simp only [hh, hb, hn]
      · next hn => simp only [hh, hb, hn]; split <;> rfl

theorem begin_eq (s : Scan) (raw : Text) :
    s.begin raw =
      match (kind raw).join? s.current with
      | some o => { s with current := o }
      | none => s.turn (kind raw) := by
  obtain ⟨done, current, fence⟩ := s
  rw [begin_eq_of_kind]
  cases kind raw <;> cases current <;> rfl

theorem takeLine_eq (s : Scan) (raw : Text) :
    s.takeLine raw =
      match s.current.extend? raw with
      | some o => { s with current := o }
      | none => s.turn (kind raw) := by
  obtain ⟨done, current, fence⟩ := s
  cases current with
  | none => exact begin_eq _ raw
  | paragraph ls => exact begin_eq _ raw
  | bullets is => exact begin_eq _ raw
  | numbered is => exact begin_eq _ raw
  | table rows =>
    have hclose : (close ⟨done, .table rows, fence⟩).begin raw =
        turn ⟨done, .table rows, fence⟩ (kind raw) := by
      rw [begin_eq]
      cases kind raw <;> rfl
    simp only [takeLine, OpenBlock.extend?, isSeparator_trimRight, isRow_trimRight,
      cells_trimRight, hclose]
    split
    · rfl
    · split <;> rfl
  | diagram ls n =>
    have hclose : (close ⟨done, .diagram ls n, fence⟩).begin raw =
        turn ⟨done, .diagram ls n, fence⟩ (kind raw) := by
      rw [begin_eq]
      cases kind raw <;> rfl
    simp only [takeLine, OpenBlock.extend?, hclose]
    split
    · rfl
    · split <;> rfl

theorem takeLine_of_extend? {s : Scan} {raw : Text} {o : OpenBlock}
    (h : s.current.extend? raw = some o) : s.takeLine raw = { s with current := o } := by
  rw [takeLine_eq, h]

theorem takeLine_of_extend?_eq_none {s : Scan} {raw : Text} (h : s.current.extend? raw = none) :
    s.takeLine raw = s.turn (kind raw) := by
  rw [takeLine_eq, h]

theorem step_of_isFence {s : Scan} {raw : Text} (h : isFence raw = true) :
    s.step raw =
      match s.fence with
      | some code => { s.emit (codeOf code) with fence := none }
      | none => { s.close with fence := some [] } := by
  unfold step
  exact if_pos h

theorem step_of_not_isFence {s : Scan} {raw : Text} (h : isFence raw = false) :
    s.step raw =
      match s.fence with
      | some code => { s with fence := some (raw :: code) }
      | none => s.takeLine raw := by
  unfold step
  exact if_neg (by simp [h])

theorem fence_takeLine (s : Scan) (raw : Text) : (s.takeLine raw).fence = s.fence := by
  rw [takeLine_eq]
  split <;> rfl

theorem step_of_opensTable {s : Scan} {raw : Text} (h : s.opensTable raw = true) :
    (s.step raw).fence = none ∧ (s.step raw).current = .table [cells raw] := by
  obtain ⟨done, current, fence⟩ := s
  unfold opensTable at h
  simp only [Bool.and_eq_true, Option.isNone_iff_eq_none, Bool.not_eq_true',
    isRow_trimRight] at h
  obtain ⟨⟨⟨⟨rfl, ht⟩, hf⟩, hd⟩, hr⟩ := h
  have hk : kind raw = .row (cells raw) := by simp [kind, hd, hr]
  have ho : current.extend? raw = none := by
    cases current with
    | table rows => simp at ht
    | diagram ls n =>
      have hne : raw.trimRight ≠ [] := by
        intro he
        rw [← isRow_trimRight, he] at hr
        simp at hr
      simp [OpenBlock.extend?, hne, hd]
    | _ => simp [OpenBlock.extend?, hk, Kind.join?]
  rw [step_of_not_isFence hf]
  refine ⟨fence_takeLine _ raw, ?_⟩
  rw [takeLine_eq, ho]
  simp only [hk]
  rfl

/-- A separator line right after the first row of a table is skipped by the table in any case. -/
theorem step_step_of_opensTable {s : Scan} {row rule : Text} (h : s.opensTable row = true)
    (hrule : isSeparator rule = true) : (s.step row).step rule = s.step row := by
  obtain ⟨hfence, htable⟩ := step_of_opensTable h
  have ho : (s.step row).current.extend? rule = some (s.step row).current := by
    rw [htable]
    simp [OpenBlock.extend?, hrule]
  rw [step_of_not_isFence (isFence_of_isSeparator hrule), hfence]
  exact takeLine_of_extend? ho

/-- Looking one line ahead changes nothing. -/
theorem run_eq_foldl (s : Scan) (ls : List Text) : s.run ls = ls.foldl step s := by
  fun_induction run s ls with
  | case1 s => rfl
  | case2 s l => rfl
  | case3 s l next rest h ih =>
    rw [Bool.and_eq_true] at h
    rw [ih, List.foldl_cons, List.foldl_cons, step_step_of_opensTable h.1 h.2]
  | case4 s l next rest h ih => exact ih

def blocksOf (ls : List Text) : List Block := (ls.foldl step start).finish

theorem segment_eq (t : Text) : segment t = blocksOf t.lines := by
  rw [segment, run_eq_foldl, blocksOf]

theorem finish_eq (s : Scan) :
    s.finish = s.done.reverse ++ (s.fence.elim [] fun c => [codeOf c]) ++ s.current.close := by
  obtain ⟨done, current, fence⟩ := s
  cases fence with
  | none =>
    change (current.close ++ done).reverse = _
    simp [OpenBlock.reverse_close]
  | some c =>
    change (current.close ++ codeOf c :: done).reverse = _
    simp [OpenBlock.reverse_close]

def after (s : Scan) (before : List Block) : Scan := { s with done := s.done ++ before }

theorem finish_after (s : Scan) (before : List Block) :
    (s.after before).finish = before.reverse ++ s.finish := by
  simp [finish_eq, after]

theorem takeLine_after (s : Scan) (before : List Block) (raw : Text) :
    (s.after before).takeLine raw = (s.takeLine raw).after before := by
  rw [takeLine_eq, takeLine_eq]
  cases h : s.current.extend? raw with
  | some o => simp only [after, h]
  | none => simp [after, h, turn]

theorem step_after (s : Scan) (before : List Block) (raw : Text) :
    (s.after before).step raw = (s.step raw).after before := by
  cases hf : isFence raw with
  | true =>
    rw [step_of_isFence hf, step_of_isFence hf]
    cases h : s.fence with
    | some code => simp [after, h, emit]
    | none => simp [after, h, close]
  | false =>
    rw [step_of_not_isFence hf, step_of_not_isFence hf]
    cases h : s.fence with
    | some code => simp [after, h]
    | none =>
      have h' : (s.after before).fence = none := h
      rw [h']
      exact takeLine_after s before raw

theorem foldl_step_after (s : Scan) (before : List Block) (ls : List Text) :
    ls.foldl step (s.after before) = (ls.foldl step s).after before := by
  induction ls generalizing s with
  | nil => rfl
  | cons l ls ih => rw [List.foldl_cons, List.foldl_cons, step_after, ih]

/-- A scan with nothing open goes on as a fresh one. -/
theorem finish_foldl_of_done (done : List Block) (ls : List Text) :
    (ls.foldl step { done := done }).finish = done.reverse ++ blocksOf ls := by
  have h : ({ done := done } : Scan) = start.after done := rfl
  rw [h, foldl_step_after, finish_after, blocksOf]

end Scan

open Scan

/-- Segmentation is a fold over the lines, one after the other. A separator line that the scan passes over
after the first row of a table could be read like any other line: it leaves the scan as it is. -/
theorem segment_eq_finish_foldl (t : Text) :
    segment t = (t.lines.foldl step start).finish ∧
      ∀ (before : List Text) (row rule : Text) (after : List Text),
        t.lines = before ++ row :: rule :: after →
        (start.run before).opensTable row = true → isSeparator rule = true →
          (before ++ [row, rule]).foldl step start = start.run (before ++ [row]) := by
  refine ⟨segment_eq t, fun before row rule after _ hrow hrule => ?_⟩
  rw [run_eq_foldl] at hrow ⊢
  rw [List.foldl_append, List.foldl_append]
  exact step_step_of_opensTable hrow hrule

def headRow : Text := "| Plan | Cost |".toList

def drawnRule : Text := "    |---|--:|".toList

def ruledText : Text :=
  "    a --> b\n| Plan | Cost |\r\n    |---|--:|\n- -\n| x | 1 |".toList

/-- The line that looks drawn goes on with the table, not with the drawing before it. -/
theorem segment_eq_finish_foldl_ruledText :
    ruledText.lines =
        ["    a --> b".toList] ++ headRow :: drawnRule :: ["- -".toList, "| x | 1 |".toList] ∧
      (start.run ["    a --> b".toList]).opensTable headRow = true ∧
      isSeparator drawnRule = true ∧ isDiagram drawnRule = true ∧
      (["    a --> b".toList] ++ [headRow, drawnRule]).foldl step start =
        start.run (["    a --> b".toList] ++ [headRow]) ∧
      (ruledText.lines.foldl step start).finish =
        [.diagram ["    a --> b".toList],
          .table [["Plan".toList, "Cost".toList], ["x".toList, "1".toList]]] := by
  have hlines : ruledText.lines =
      ["    a --> b".toList] ++ headRow :: drawnRule :: ["- -".toList, "| x | 1 |".toList] := by
    decide
  have hrow : (start.run ["    a --> b".toList]).opensTable headRow = true := by decide
  have hrule : isSeparator drawnRule = true := by decide
  have h := segment_eq_finish_foldl ruledText
  refine ⟨hlines, hrow, hrule, by decide, h.2 _ _ _ _ hlines hrow hrule, ?_⟩
  rw [← h.1]
  decide +kernel

end Letterhead
