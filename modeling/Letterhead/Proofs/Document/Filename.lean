import Letterhead.Document.Filename
import Letterhead.Document.Format
import Letterhead.Proofs.Number.Numeral
import Letterhead.Proofs.Text.Lines
import Letterhead.Store.Files

/-! File names of documents. Whatever thread and title are, the file that a name leads to tells the
millisecond and the format, so that two documents share a file only if they share both. -/
namespace Letterhead

namespace Location

/-- What follows the last slash ends the last part of a name. -/
theorem exists_splitOn_append {t : Text} (ht : '/' ∉ t) (s : Text) :
    ∃ init p, s.splitOn '/' = init ++ [p] ∧ (s ++ t).splitOn '/' = init ++ [p ++ t] := by
  induction s with
  | nil => exact ⟨[], [], rfl, List.splitOn_eq_singleton ht⟩
  | cons c s ih =>
    obtain ⟨init, p, hs, hst⟩ := ih
    simp only [List.splitOn_eq_splitOnP] at hs hst
    obtain ⟨m, ms, hm, hc⟩ := Text.exists_splitOnP_cons (· == '/') c s
    obtain ⟨n, ns, hn, hd⟩ := Text.exists_splitOnP_cons (· == '/') c (s ++ t)
    rw [List.cons_append, List.splitOn_eq_splitOnP, List.splitOn_eq_splitOnP, hc, hd, ← hm, ← hn]
    by_cases hslash : (c == '/') = true
    · exact ⟨[] :: init, p, by rw [if_pos hslash, hs]; rfl, by rw [if_pos hslash, hst]; rfl⟩
    · rw [if_neg hslash, if_neg hslash]
      rw [hs] at hm
      rw [hst] at hn
      cases init with
      | nil =>
        obtain ⟨rfl, rfl⟩ := List.cons.inj hm
        obtain ⟨rfl, rfl⟩ := List.cons.inj hn
        exact ⟨[], c :: p, rfl, rfl⟩
      | cons i init =>
        obtain ⟨rfl, rfl⟩ := List.cons.inj hm
        obtain ⟨rfl, rfl⟩ := List.cons.inj hn
        exact ⟨(c :: i) :: init, p, rfl, rfl⟩

def isIdle (s : Text) : Bool := s.isEmpty || s == ['.']

/-- An ending with an underscore and without slashes ends the last step of a name. -/
theorem exists_steps_append {t : Text} (ht : '/' ∉ t) (hline : '_' ∈ t) (s : Text) :
    ∃ init p, s.splitOn '/' = init ++ [p] ∧
      steps (s ++ t) = (init.filter fun u => !isIdle u) ++ [p ++ t] := by
  obtain ⟨init, p, hs, hst⟩ := exists_splitOn_append ht s
  have hlast : isIdle (p ++ t) = false := by
    by_contra hidle
    simp only [isIdle, Bool.not_eq_false, Bool.or_eq_true, List.isEmpty_iff, beq_iff_eq] at hidle
    have hmem : '_' ∈ p ++ t := List.mem_append_right p hline
    rcases hidle with he | he <;> rw [he] at hmem <;> exact absurd hmem (by decide)
  have hfilter : steps (s ++ t) = (init ++ [p ++ t]).filter fun u => !isIdle u := by
    rw [steps, hst]
    simp [isIdle, bne]
  refine ⟨init, p, hs, ?_⟩
  rw [hfilter, List.filter_append, List.filter_cons_of_pos (by rw [hlast]; rfl), List.filter_nil]

def walk (t : Layout) (f : Folder) : List Text → Option Folder
  | [] => some f
  | s :: ss =>
    if s = upwards then walk t (t.parent f) ss else (t.step? f s).bind fun g => walk t g ss

/-- All steps but the last lead to the folder of a file, and the last one is its name. -/
theorem exists_of_follow {t : Layout} {f : Folder} {ss : List Text} {l : Location}
    (h : follow t f ss = .file l) :
    ∃ init, ss = init ++ [l.name] ∧ walk t f init = some l.folder := by
  fun_induction follow t f ss with
  | case1 f => cases h
  | case2 f => cases h
  | case3 f s hs =>
    cases h
    exact ⟨[], rfl, rfl⟩
  | case4 f rest hne ih =>
    obtain ⟨init, rfl, hwalk⟩ := ih h
    exact ⟨upwards :: init, rfl, by rw [walk, if_pos rfl, hwalk]⟩
  | case5 f s rest hne hs g hstep ih =>
    obtain ⟨init, rfl, hwalk⟩ := ih h
    exact ⟨s :: init, rfl, by rw [walk, if_neg hs, hstep, Option.bind_some, hwalk]⟩
  | case6 => cases h

end Location

theorem Files.route_of_target {fs : Files} {t : Layout} {name : Text} {l : Location}
    (h : fs.target name t = .ok l) : Location.route t name = .file l := by
  unfold target at h
  split at h
  · cases h
  · split at h
    · cases h
    · cases h
    · next m hroute =>
      split at h
      · cases h
      · exact Except.ok.inj h ▸ hroute

theorem Files.exists_of_target {fs : Files} {t : Layout} {name : Text} {l : Location}
    (h : fs.target name t = .ok l) : ∃ init, Location.steps name = init ++ [l.name] ∧
      Location.walk t (Location.origin name) init = some l.folder :=
  Location.exists_of_follow (route_of_target h)

namespace Filename

def stamp (m : Int × Format) : Text := intText m.1 ++ '.' :: m.2.name

theorem not_mem_stamp {c : Char} (hc : c.isDigit = false) (hminus : c ≠ '-') (hpoint : c ≠ '.')
    (hletter : ∀ f : Format, c ∉ f.name) (m : Int × Format) : c ∉ stamp m := by
  intro h
  rw [stamp, List.mem_append, List.mem_cons] at h
  rcases h with h | h | h
  · rcases mem_intText h with h | h
    · exact hminus h
    · rw [hc] at h
      cases h
  · exact hpoint h
  · exact hletter m.2 h

theorem stamp_injective {a b : Int × Format} (h : stamp a = stamp b) : a = b := by
  have hpoint : ∀ f : Format, '.' ∉ f.name := fun f => by cases f <;> decide
  have hformat : a.2.name = b.2.name := Text.eq_of_append_cons_eq (hpoint _) (hpoint _) h
  rw [stamp, stamp, hformat] at h
  have hmillis := intText_injective (List.append_cancel_right h)
  have hname := Format.ofName?_name a.2
  rw [hformat, Format.ofName?_name, Option.some.injEq] at hname
  exact Prod.ext hmillis hname.symm

/-- What a name has of its thread, without the underscore. -/
def threadStart (thread : Option Text) : Text := (thread.getD []).take threadLimit

theorem exists_threadPart_eq (thread : Option Text) :
    ∃ t, threadPart thread = threadStart thread ++ t ∧ ∀ c ∈ t, c = '_' := by
  cases thread with
  | none => exact ⟨[], rfl, by simp⟩
  | some t =>
    by_cases ht : t.isEmpty = true
    · exact ⟨[], by simp [threadPart, threadStart, List.isEmpty_iff.1 ht], by simp⟩
    · exact ⟨['_'], by simp [threadPart, threadStart, ht], by simp⟩

def Stamped (name : Text) (m : Int × Format) : Prop := ∃ start, name = start ++ '_' :: stamp m

theorem Stamped.unique {name : Text} {a b : Int × Format} (ha : Stamped name a)
    (hb : Stamped name b) : a = b := by
  obtain ⟨s, rfl⟩ := ha
  obtain ⟨t, ht⟩ := hb
  have hline : ∀ m, '_' ∉ stamp m :=
    not_mem_stamp (by decide) (by decide) (by decide) fun f => by cases f <;> decide
  exact stamp_injective (Text.eq_of_append_cons_eq (hline a) (hline b) ht)

/-- A document is written to a file whose name tells its millisecond and its format. -/
theorem stamped_of_target {fs : Files} {title : Text} {f : Format} {thread : Option Text}
    {now : Instant} {layout : Layout} {l : Location}
    (h : fs.target (make title f.name thread now) layout = .ok l) :
    Stamped l.name (now.millis, f) := by
  have hname : make title f.name thread now =
      (threadPart thread ++ slug title) ++ '_' :: stamp (now.millis, f) := by
    simp [make, stamp]
  have hslash : '/' ∉ '_' :: stamp (now.millis, f) := by
    have hstamp := not_mem_stamp (c := '/') (by decide) (by decide) (by decide)
      (fun f => by cases f <;> decide) (now.millis, f)
    simpa using hstamp
  obtain ⟨init, p, -, hsteps⟩ := Location.exists_steps_append hslash (by simp)
    (threadPart thread ++ slug title)
  obtain ⟨_, hlast, -⟩ := Files.exists_of_target h
  rw [hname, hsteps] at hlast
  exact ⟨p, (List.singleton_inj.1 (List.append_inj_right' hlast rfl)).symm⟩

end Filename
end Letterhead
