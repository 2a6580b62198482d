import Letterhead.Proofs.Store.Integrity

/-! Numbers of rows. A row gets one more than the greatest number present, so that a number comes back
once the rows from it on have gone; as long as the greatest number stays, none does. -/
namespace Letterhead

namespace Store

def numbers (s : Store) : List Int := s.rows.map Row.id

def given (s : Store) (a : Action) : List Int := (s.act a).numbers.filter fun n => n ∉ s.numbers

def told (s : Store) : Action → List Int
  | .generate p now recording r =>
    match (s.generate p now recording r).1 with
    | .ok d => if d.isRecorded then [d.id] else []
    | .error _ => []
  | _ => []

def trail (f : Store → Action → List Int) (s : Store) : List Action → List Int
  | [] => []
  | a :: as => f s a ++ trail f (s.act a) as

end Store

def Action.IsReadBack : Action → Prop
  | generate _ _ recording _ => recording ≠ .notReadBack
  | _ => True

namespace Store

theorem trail_append (f : Store → Action → List Int) (s : Store) (as bs : List Action) :
    trail f s (as ++ bs) = trail f s as ++ trail f (s.run as) bs := by
  induction as generalizing s with
  | nil => simp [trail, run]
  | cons a as ih => simpa [trail, run] using ih (s.act a)

theorem trail_concat (f : Store → Action → List Int) (s : Store) (as : List Action) (a : Action) :
    trail f s (as ++ [a]) = trail f s as ++ f (s.run as) a := by
  rw [trail_append, trail, trail, List.append_nil]

theorem numbers_eq (s : Store) : s.numbers = s.places.map Prod.fst := by
  simp [numbers, places]

theorem nextId_not_mem (s : Store) : s.nextId ∉ s.numbers := by
  intro h
  obtain ⟨q, hq, hid⟩ := List.mem_map.1 h
  exact absurd hid (Int.ne_of_lt (id_lt_nextId hq))

theorem filter_not_mem_self (ns : List Int) : ns.filter (fun n => n ∉ ns) = [] :=
  List.filter_eq_nil_iff.2 fun n hn => by simpa using hn

theorem filter_concat_nextId (s : Store) :
    (s.numbers ++ [s.nextId]).filter (fun n => n ∉ s.numbers) = [s.nextId] := by
  rw [List.filter_append, filter_not_mem_self]
  simp [s.nextId_not_mem]

/-- An operation adds no number, or it is a request and adds the next one at the end. -/
theorem given_cases (s : Store) (a : Action) :
    s.given a = [] ∧ (s.act a).numbers ⊆ s.numbers ∨
      s.given a = [s.nextId] ∧ (s.act a).numbers = s.numbers ++ [s.nextId] ∧
        ∃ p now recording r, a = .generate p now recording r := by
  cases s.places_act a with
  | inl hsub =>
    have hnumbers : (s.act a).numbers ⊆ s.numbers := by
      rw [numbers_eq, numbers_eq]
      exact (hsub.map _).subset
    exact Or.inl ⟨List.filter_eq_nil_iff.2 fun n hn => by simpa using hnumbers hn, hnumbers⟩
  | inr hadded =>
    obtain ⟨p, now, recording, r, l, b, d, ha, -, hplaces⟩ := hadded
    have hnumbers : (s.act a).numbers = s.numbers ++ [s.nextId] := by
      rw [numbers_eq, hplaces, List.map_append, ← numbers_eq]
      rfl
    exact Or.inr ⟨by rw [given, hnumbers, s.filter_concat_nextId], hnumbers,
      p, now, recording, r, ha⟩

theorem nextId_cases (s : Store) :
    s.numbers = [] ∧ s.nextId = 1 ∨ ∃ n ∈ s.numbers, s.nextId = n + 1 := by
  unfold nextId
  cases hmax : (s.rows.map Row.id).max? with
  | none => exact Or.inl ⟨List.max?_eq_none_iff.1 hmax, rfl⟩
  | some n => exact Or.inr ⟨n, (List.max?_eq_some_iff.1 hmax).1, rfl⟩

/-- What is told is what was given, unless a row could not be read back. -/
theorem told_cases {s : Store} (hs : 1 ≤ s.nextId) (a : Action) :
    s.told a = s.given a ∨ s.told a = [] ∧ ¬ a.IsReadBack := by
  have hgiven := s.given_cases a
  cases a with
  | generate p now recording r =>
    have hgen := s.generates_generate p now recording r .unbounded
    have hnone : s.numbers.filter (fun n => n ∉ s.numbers) = [] := filter_not_mem_self s.numbers
    simp only [told, given, act]
    generalize s.generate p now recording r = x at hgen
    cases hgen with
    | refused => exact Or.inl hnone.symm
    | unrecorded => exact Or.inl hnone.symm
    | overflows => exact Or.inl hnone.symm
    | full => exact Or.inl hnone.symm
    | @recorded l b d thread expires id _ _ _ hnumber =>
      obtain rfl : s.nextId = id := Option.some.inj hnumber
      cases recording with
      | succeeds =>
        refine Or.inl ?_
        have hrows : ∀ q : Row, q.id = s.nextId →
            ((s.afterWrite p now r l d).insert q).numbers = s.numbers ++ [s.nextId] := fun q hq => by
          rw [← hq]
          simp [numbers, insert, putFile, afterMake]
        rw [record, descriptor_rowOf, hrows _ rfl, filter_concat_nextId]
        have hpos : (descriptorOf s.nextId now r thread (r.filename now) l d
            expires).isRecorded = true := decide_eq_true hs
        simp only [hpos, if_true]
        rfl
      | notAdded => exact Or.inl hnone.symm
      | notCommitted => exact Or.inl hnone.symm
      | notReadBack => exact Or.inr ⟨rfl, fun hread => hread rfl⟩
  | delete | sweep | countUp | replaceLogos =>
    cases hgiven with
    | inl hnone => exact Or.inl hnone.1.symm
    | inr hone =>
      obtain ⟨-, -, p, now, recording, r, hgen⟩ := hone
      cases hgen

/-- Numbers from one on without a gap. -/
structure IsGapless (ns : List Int) : Prop where
  pos : ∀ n ∈ ns, 1 ≤ n
  below : ∀ n ∈ ns, ∀ m, 1 ≤ m → m ≤ n → m ∈ ns

theorem IsGapless.nextId_pos {ns : List Int} (h : IsGapless ns) {s : Store} (hs : s.numbers ⊆ ns) :
    1 ≤ s.nextId := by
  cases s.nextId_cases with
  | inl hone => omega
  | inr hlast =>
    obtain ⟨n, hn, hnext⟩ := hlast
    have hpos := h.pos n (hs hn)
    omega

theorem nextId_le {s : Store} {n : Int} (hn : 1 ≤ n) (h : ∀ m ∈ s.numbers, m < n) :
    s.nextId ≤ n := by
  cases s.nextId_cases with
  | inl hone => omega
  | inr hlast =>
    obtain ⟨m, hm, hnext⟩ := hlast
    have hlt := h m hm
    omega

theorem IsGapless.concat {ns : List Int} (h : IsGapless ns) {s : Store} (hs : s.numbers ⊆ ns) :
    IsGapless (ns ++ [s.nextId]) := by
  -- The next number is one, or stands behind one of those that were given before.
  have hbefore : ∀ m, 1 ≤ m → m < s.nextId → m ∈ ns := by
    intro m hm hlt
    cases s.nextId_cases with
    | inl hone => omega
    | inr hlast =>
      obtain ⟨n, hn, hnext⟩ := hlast
      exact h.below n (hs hn) m hm (by omega)
  constructor
  · intro n hn
    cases List.mem_append.1 hn with
    | inl hn => exact h.pos n hn
    | inr hn => exact List.mem_singleton.1 hn ▸ h.nextId_pos hs
  · intro n hn m hm hle
    cases List.mem_append.1 hn with
    | inl hn => exact List.mem_append_left _ (h.below n hn m hm hle)
    | inr hn =>
      obtain rfl := List.mem_singleton.1 hn
      by_cases hlt : m < s.nextId
      · exact List.mem_append_left _ (hbefore m hm hlt)
      · exact List.mem_append_right _ (List.mem_singleton.2 (by omega))

section Run
variable (threads : List Text)

/-- The rows have numbers that were given, and numbers were given without a gap. -/
theorem numbers_subset_trail (as : List Action) :
    ((ofThreads threads).run as).numbers ⊆ trail given (ofThreads threads) as ∧
      IsGapless (trail given (ofThreads threads) as) := by
  induction as using List.reverseRecOn with
  | nil => exact ⟨by simp [run, numbers, ofThreads], by simp [trail], by simp [trail]⟩
  | append_singleton as a ih =>
    obtain ⟨hsubset, hgapless⟩ := ih
    rw [run_concat, trail_concat]
    cases given_cases ((ofThreads threads).run as) a with
    | inl hnone =>
      rw [hnone.1, List.append_nil]
      exact ⟨List.Subset.trans hnone.2 hsubset, hgapless⟩
    | inr hone =>
      rw [hone.1, hone.2.1]
      exact ⟨List.append_subset.2 ⟨List.subset_append_of_subset_left _ hsubset,
        List.subset_append_right _ _⟩, hgapless.concat hsubset⟩

/-- The next number is new exactly where no number given before is greater than all that are there. -/
theorem nextId_not_mem_iff (as : List Action) :
    ((ofThreads threads).run as).nextId ∉ trail given (ofThreads threads) as ↔
      ∀ n ∈ trail given (ofThreads threads) as,
        ∃ m ∈ ((ofThreads threads).run as).numbers, n ≤ m := by
  obtain ⟨hsubset, hgapless⟩ := numbers_subset_trail threads as
  constructor
  · intro hnew n hn
    by_contra hnone
    simp only [not_exists, not_and, Int.not_le] at hnone
    exact hnew (hgapless.below n hn _ (hgapless.nextId_pos hsubset)
      (nextId_le (hgapless.pos n hn) hnone))
  · intro hall hmem
    obtain ⟨m, hm, hle⟩ := hall _ hmem
    obtain ⟨q, hq, rfl⟩ := List.mem_map.1 hm
    have hlt := id_lt_nextId hq
    omega

/-- An operation of a run adds no row while a number given before is greater than all that are
there. -/
def AddsInOrder (as : List Action) (a : Action) : Prop :=
  ((ofThreads threads).run as).given a ≠ [] → ∀ n ∈ trail given (ofThreads threads) as,
    ∃ m ∈ ((ofThreads threads).run as).numbers, n ≤ m

theorem nodup_trail_concat_iff (as : List Action) (a : Action) :
    (trail given (ofThreads threads) (as ++ [a])).Nodup ↔
      (trail given (ofThreads threads) as).Nodup ∧ AddsInOrder threads as a := by
  rw [trail_concat, AddsInOrder]
  cases given_cases ((ofThreads threads).run as) a with
  | inl hnone => simp [hnone.1]
  | inr hone =>
    rw [hone.1, ← nextId_not_mem_iff, List.nodup_append_comm, List.singleton_append,
      List.nodup_cons, and_comm]
    simp

theorem nodup_trail_iff (as : List Action) : (trail given (ofThreads threads) as).Nodup ↔
    ∀ bs a, bs ++ [a] <+: as → AddsInOrder threads bs a := by
  induction as using List.reverseRecOn with
  | nil => simp [trail]
  | append_singleton as a ih =>
    rw [nodup_trail_concat_iff, ih]
    simp only [List.prefix_concat_iff]
    constructor
    · intro h bs c hp
      cases hp with
      | inl hlast =>
        obtain ⟨rfl, hc⟩ := List.append_inj' hlast rfl
        obtain rfl := List.singleton_inj.1 hc
        exact h.2
      | inr hp => exact h.1 bs c hp
    · exact fun h => ⟨fun bs c hp => h bs c (Or.inr hp), h as a (Or.inl rfl)⟩

/-- A number that has gone does not come back where none is given twice. -/
theorem not_mem_numbers_run {as bs : List Action} {n : Int}
    (hnodup : (trail given (ofThreads threads) (as ++ bs)).Nodup)
    (hn : n ∈ trail given (ofThreads threads) as)
    (hgone : n ∉ ((ofThreads threads).run as).numbers) :
    n ∉ ((ofThreads threads).run (as ++ bs)).numbers := by
  induction bs using List.reverseRecOn with
  | nil => rwa [List.append_nil]
  | append_singleton bs a ih =>
    rw [← List.append_assoc] at hnodup ⊢
    rw [trail_concat] at hnodup
    have hbefore := ih (List.nodup_append.1 hnodup).1
    rw [run_concat]
    cases given_cases ((ofThreads threads).run (as ++ bs)) a with
    | inl hnone => exact fun hm => hbefore (hnone.2 hm)
    | inr hone =>
      rw [hone.2.1, List.mem_append, List.mem_singleton]
      intro hm
      cases hm with
      | inl hm => exact hbefore hm
      | inr hm =>
        have hold : n ∈ trail given (ofThreads threads) (as ++ bs) := by
          rw [trail_append]
          exact List.mem_append_left _ hn
        exact List.disjoint_of_nodup_append hnodup hold (by simp [hone.1, hm])

theorem trail_told (as : List Action) :
    (trail told (ofThreads threads) as).Sublist (trail given (ofThreads threads) as) ∧
      ((∀ a ∈ as, a.IsReadBack) →
        trail told (ofThreads threads) as = trail given (ofThreads threads) as) := by
  induction as using List.reverseRecOn with
  | nil => exact ⟨List.Sublist.refl _, fun _ => rfl⟩
  | append_singleton as a ih =>
    obtain ⟨hsubset, hgapless⟩ := numbers_subset_trail threads as
    rw [trail_concat, trail_concat]
    cases told_cases (hgapless.nextId_pos hsubset) a with
    | inl hsame =>
      rw [hsame]
      exact ⟨ih.1.append (List.Sublist.refl _), fun h =>
        congrArg (· ++ _) (ih.2 fun b hb => h b (List.mem_append_left _ hb))⟩
    | inr hunread =>
      rw [hunread.1]
      exact ⟨ih.1.append (List.nil_sublist _), fun h => absurd (h a (by simp)) hunread.2⟩

theorem nextId_run_le (as : List Action) : ((ofThreads threads).run as).nextId ≤ as.length + 1 := by
  have hall : ∀ n ∈ ((ofThreads threads).run as).numbers, n < as.length + 1 := by
    induction as using List.reverseRecOn with
    | nil => simp [run, numbers, ofThreads]
    | append_singleton as a ih =>
      have hnext := nextId_le (by omega) ih
      rw [run_concat, List.length_append, List.length_singleton]
      intro n hn
      cases given_cases ((ofThreads threads).run as) a with
      | inl hnone =>
        have hlt := ih n (hnone.2 hn)
        omega
      | inr hone =>
        rw [hone.2.1, List.mem_append, List.mem_singleton] at hn
        cases hn with
        | inl hn =>
          have hlt := ih n hn
          omega
        | inr hn => omega
  exact nextId_le (by omega) hall

theorem nextId_run_pos (as : List Action) : 1 ≤ ((ofThreads threads).run as).nextId := by
  obtain ⟨hsubset, hgapless⟩ := numbers_subset_trail threads as
  exact hgapless.nextId_pos hsubset

/-- As long as a run has fewer operations than there are keys, a key is given as if there were no end of
them, and none is drawn. -/
theorem generate_keyed_run {as : List Action} (h : as.length + 1 < keyLimit) (p : Press)
    (now : Instant) (recording : Recording) (r : Request) (draw : List Int → Option Int) :
    ((ofThreads threads).run as).generate p now recording r (.keyed draw) =
      ((ofThreads threads).run as).generate p now recording r := by
  have hle := nextId_run_le threads as
  have hpos := nextId_run_pos threads as
  have hkey : isKey ((ofThreads threads).run as).nextId = true := by
    simp only [isKey, Bool.and_eq_true, decide_eq_true_eq]
    exact ⟨by omega, by omega⟩
  have hnumber : (((ofThreads threads).run as).afterMake p now r).number? (.keyed draw) =
      some ((ofThreads threads).run as).nextId := if_pos hkey
  simp only [generate, keep, hnumber]
  rfl

end Run

theorem row?_of_not_mem {s : Store} {n : Int} (hkey : isKey n = true) (h : n ∉ s.numbers) :
    s.row? n = .ok none := by
  have hnone : s.rows.find? (fun q => q.id = n) = none := by
    refine List.find?_eq_none.2 fun q hq hid => h ?_
    exact List.mem_map.2 ⟨q, hq, of_decide_eq_true hid⟩
  rw [row?, if_pos hkey, hnone]

/-- A number beyond 64 bits cannot be looked up, in whatever store. -/
theorem row?_of_not_isKey {n : Int} (hkey : isKey n = false) (s : Store) :
    s.row? n = .error .overflow := by
  rw [row?, if_neg (by simp [hkey])]

theorem get?_of_not_mem {s : Store} {n : Int} (hkey : isKey n = true) (h : n ∉ s.numbers) :
    s.get? n = .ok none := by
  rw [get?, row?_of_not_mem hkey h]
  rfl

end Store
end Letterhead
