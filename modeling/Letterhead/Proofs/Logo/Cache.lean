import Letterhead.Proofs.Logo.Key
import Letterhead.Proofs.Logo.Process

/-! Calls for logos through the cache, one after the other. A call gives the logo that the first call
under its key left behind, and what it gives alone if none did. So calls give what they give alone
exactly when whatever a call left is what each later one under its key would make. -/
namespace Letterhead.Logo

abbrev Outcome := Except Failure (Option Logo)

/-- A call for a logo: what can be reached at that time, the source and the box, and whether the cache
can be written. -/
structure Load where
  surroundings : Surroundings
  source : Source
  box : Box
  writable : Bool := true

namespace Load

def key? (d : Load) : Option Text := Logo.key? d.source d.box

def made (g : Imaging) (d : Load) : Outcome := process g d.surroundings d.source d.box

/-- What a call gives when no other one was made: without a key it fails. -/
def alone (g : Imaging) (d : Load) : Outcome :=
  if d.source.IsWritable then d.made g else .error .halfCharacter

/-- The logo that is written into the cache if there is none under the key. -/
def kept? (g : Imaging) (d : Load) : Option Logo :=
  match d.writable, d.made g with
  | true, .ok l => l
  | _, _ => none

def SharesKey (e d : Load) : Prop := ∃ key, e.key? = some key ∧ d.key? = some key

/-- What a call leaves in the cache is what a later one under its key would make. -/
def Agrees (g : Imaging) (e d : Load) : Prop :=
  e.SharesKey d → ∀ l, e.kept? g = some l → d.made g = .ok (some l)

variable {g : Imaging} {d : Load} {key : Text}

theorem kept?_eq_some_iff {l : Logo} :
    d.kept? g = some l ↔ d.writable = true ∧ d.made g = .ok (some l) := by
  unfold kept?
  split
  · next hw hm => simp [hw, hm]
  · next hne =>
    constructor
    · rintro ⟨⟩
    · rintro ⟨hw, hm⟩
      exact (hne _ hw hm).elim

theorem isSome_key? (d : Load) : d.key?.isSome = d.source.material?.isSome :=
  Option.isSome_map

theorem alone_of_key?_none (h : d.key? = none) : d.alone g = .error .halfCharacter := by
  have hnone : ¬ d.source.IsWritable := by
    rw [Source.IsWritable, ← isSome_key?, h]
    decide
  rw [alone, if_neg hnone]

theorem alone_of_key? (h : d.key? = some key) : d.alone g = d.made g := by
  have hsome : d.source.IsWritable := by
    rw [Source.IsWritable, ← isSome_key?, h]
    rfl
  rw [alone, if_pos hsome]

end Load

/-- The logo that calls leave under a key: that of the first one that leaves any. -/
def left? (g : Imaging) (past : List Load) (key : Text) : Option Logo :=
  past.findSome? fun d => if d.key? = some key then d.kept? g else none

section Past
variable {g : Imaging} {past : List Load} {key : Text} {l : Logo}

theorem left?_concat (past : List Load) (d : Load) (key : Text) :
    left? g (past ++ [d]) key =
      (left? g past key).or (if d.key? = some key then d.kept? g else none) := by
  rw [left?, List.findSome?_append, List.findSome?_singleton]
  rfl

theorem exists_of_left? (h : left? g past key = some l) :
    ∃ d ∈ past, d.key? = some key ∧ d.kept? g = some l := by
  obtain ⟨d, hd, hl⟩ := List.exists_of_findSome?_eq_some h
  split at hl
  · next hkey => exact ⟨d, hd, hkey, hl⟩
  · cases hl

end Past

def given (g : Imaging) (past : List Load) (d : Load) : Outcome :=
  match d.key?.bind (left? g past) with
  | some l => .ok (some l)
  | none => d.alone g

abbrev Load.through (g : Imaging) (d : Load) (c : Cache) : Outcome × Cache :=
  c.load g d.writable d.surroundings d.source d.box

namespace Cache

/-- The cache holds what some calls have left, and nothing else. -/
def Holds (g : Imaging) (c : Cache) (past : List Load) : Prop :=
  ∀ key, c.entries.lookup key = (left? g past key).map fun l => .bytes l.bytes

variable {g : Imaging} {c : Cache} {past : List Load} {d : Load} {l : Logo} {key : Text}

theorem holds_nil : Cache.Holds g {} [] := fun _ => rfl

theorem get?_eq (h : c.Holds g past) (key : Text) :
    c.get? key = (left? g past key).map Logo.bytes := by
  rw [get?, h key]
  cases left? g past key <;> rfl

/-- A logo that was left in the cache is read back as it was. -/
theorem logo?_eq (hg : g.IsSound) (h : c.Holds g past) (key : Text) :
    c.logo? g key = .ok (left? g past key) := by
  rw [logo?, get?_eq h]
  cases hl : left? g past key with
  | none => rfl
  | some l =>
    obtain ⟨d, -, -, hd⟩ := exists_of_left? hl
    obtain ⟨i, hi, he⟩ := isReadable_of_process hg (Load.kept?_eq_some_iff.1 hd).2
    simp only [Option.map_some, hi]
    exact congrArg (fun l => Except.ok (some l)) he.symm

theorem holds_concat_of_unchanged (h : c.Holds g past)
    (hd : ∀ key, d.key? = some key → left? g past key = none → d.kept? g = none) :
    c.Holds g (past ++ [d]) := fun key => by
  rw [h key, left?_concat]
  split
  · next hkey =>
    cases hl : left? g past key with
    | some l => rfl
    | none => rw [hd key hkey hl, Option.or_none]
  · rw [Option.or_none]

theorem holds_concat_set (h : c.Holds g past) (hkey : d.key? = some key)
    (hl : left? g past key = none) (hd : d.kept? g = some l) :
    (c.set key l.bytes).Holds g (past ++ [d]) := fun other => by
  have hset : c.set key l.bytes = ⟨Named.set key (.bytes l.bytes) c.entries⟩ := by
    rw [set, h key, hl]
    rfl
  rw [hset, left?_concat]
  by_cases hother : d.key? = some other
  · obtain rfl := Option.some.inj (hkey.symm.trans hother)
    rw [if_pos hkey, Named.lookup_set_self, hl, hd]
    rfl
  · have hne : other ≠ key := fun he => hother (he ▸ hkey)
    rw [if_neg hother, Named.lookup_set_of_ne hne, h other, Option.or_none]

theorem through_of_key?_none (h : d.key? = none) (c : Cache) :
    d.through g c = (.error .halfCharacter, c) := by
  have hkey : Logo.key? d.source d.box = none := h
  rw [Load.through, load, hkey]

/-- A call that finds nothing gives what is made of its source. -/
theorem through_of_logo?_none (hkey : d.key? = some key) (h : c.logo? g key = .ok none) :
    d.through g c = (d.made g, match d.kept? g with | some l => c.set key l.bytes | none => c) := by
  have hkey' : Logo.key? d.source d.box = some key := hkey
  have hmade : process g d.surroundings d.source d.box = d.made g := rfl
  rw [Load.through, load, hkey']
  simp only [h, hmade]
  unfold Load.kept?
  cases d.made g with
  | error e => cases d.writable <;> rfl
  | ok r => cases r <;> cases d.writable <;> rfl

theorem through_of_logo?_some (hkey : d.key? = some key) (h : c.logo? g key = .ok (some l)) :
    d.through g c = (.ok (some l), c) := by
  have hkey' : Logo.key? d.source d.box = some key := hkey
  rw [Load.through, load, hkey']
  simp only [h]

theorem through_of_logo?_error {e : Failure} (hkey : d.key? = some key)
    (h : c.logo? g key = .error e) : d.through g c = (.error e, c) := by
  have hkey' : Logo.key? d.source d.box = some key := hkey
  rw [Load.through, load, hkey']
  simp only [h]

/-- A call gives what the calls before it determine, and leaves a cache that holds what it left. -/
theorem through_eq (hg : g.IsSound) (h : c.Holds g past) (d : Load) :
    (d.through g c).1 = given g past d ∧ (d.through g c).2.Holds g (past ++ [d]) := by
  cases hkey : d.key? with
  | none =>
    rw [through_of_key?_none hkey, given, hkey]
    refine ⟨(Load.alone_of_key?_none hkey).symm, holds_concat_of_unchanged h fun key hk => ?_⟩
    rw [hkey] at hk
    cases hk
  | some key =>
    have hlogo := logo?_eq hg h key
    cases hl : left? g past key with
    | some l =>
      rw [hl] at hlogo
      rw [through_of_logo?_some hkey hlogo, given, hkey, Option.bind_some, hl]
      refine ⟨rfl, holds_concat_of_unchanged h fun other ho hnone => ?_⟩
      obtain rfl := Option.some.inj (hkey.symm.trans ho)
      rw [hl] at hnone
      cases hnone
    | none =>
      rw [hl] at hlogo
      rw [through_of_logo?_none hkey hlogo, given, hkey, Option.bind_some, hl]
      refine ⟨(Load.alone_of_key? hkey).symm, ?_⟩
      cases hk : d.kept? g with
      | none => exact holds_concat_of_unchanged h fun _ _ _ => hk
      | some l => exact holds_concat_set h hkey hl hk

def outcomes (g : Imaging) : Cache → List Load → List Outcome
  | _, [] => []
  | c, d :: ds =>
    let r := d.through g c
    r.1 :: outcomes g r.2 ds

/-- While earlier calls agree, each of them that leaves a logo leaves the same one under a key. -/
theorem eq_of_left? (hpast : past.Pairwise (Load.Agrees g)) (hl : left? g past key = some l)
    {e : Load} (he : e ∈ past) (hkey : e.key? = some key) {k : Logo} (hk : e.kept? g = some k) :
    k = l := by
  induction past with
  | nil => cases he
  | cons f past ih =>
    obtain ⟨hf, hrest⟩ := List.pairwise_cons.1 hpast
    rw [left?, List.findSome?_cons] at hl
    split at hl
    · next m hm =>
      obtain rfl := Option.some.inj hl
      split at hm
      · next hfkey =>
        rcases List.mem_cons.1 he with rfl | he
        · exact Option.some.inj (hk.symm.trans hm)
        · have hmade := hf e he ⟨key, hfkey, hkey⟩ m hm
          have hmade' := (Load.kept?_eq_some_iff.1 hk).2
          rw [hmade] at hmade'
          exact (Option.some.inj (Except.ok.inj hmade')).symm
      · cases hm
    · next hnone =>
      rcases List.mem_cons.1 he with rfl | he
      · rw [if_pos hkey, hk] at hnone
        cases hnone
      · exact ih hrest hl he

theorem given_eq_alone_iff (hpast : past.Pairwise (Load.Agrees g)) (d : Load) :
    given g past d = d.alone g ↔ ∀ e ∈ past, e.Agrees g d := by
  unfold given
  cases hkey : d.key? with
  | none =>
    refine iff_of_true rfl fun e _ ⟨key, _, hk⟩ => ?_
    rw [hkey] at hk
    cases hk
  | some key =>
    have halone := Load.alone_of_key? (g := g) hkey
    rw [Option.bind_some]
    cases hl : left? g past key with
    | none =>
      refine iff_of_true rfl fun e he ⟨other, hother, hk⟩ l hkept => ?_
      obtain rfl := Option.some.inj (hkey.symm.trans hk)
      have hnone := List.findSome?_eq_none_iff.1 hl e he
      rw [if_pos hother, hkept] at hnone
      cases hnone
    | some l =>
      rw [halone]
      constructor
      · -- Not only the first call that left a logo agrees: the other ones left the same.
        rintro hmade e he ⟨other, hother, hk⟩ k hkept
        obtain rfl := Option.some.inj (hkey.symm.trans hk)
        rw [eq_of_left? hpast hl he hother hkept]
        exact hmade.symm
      · intro hall
        obtain ⟨e, he, hother, hk⟩ := exists_of_left? hl
        exact (hall e he ⟨key, hother, hkey⟩ l hk).symm

theorem outcomes_eq_map_alone_iff_of_holds (hg : g.IsSound) (h : c.Holds g past)
    (hpast : past.Pairwise (Load.Agrees g)) (ds : List Load) :
    c.outcomes g ds = ds.map (Load.alone g) ↔ (past ++ ds).Pairwise (Load.Agrees g) := by
  -- The calls so far agree: otherwise one of them has not given what it gives alone.
  induction ds generalizing c past with
  | nil => simpa [outcomes] using hpast
  | cons d ds ih =>
    obtain ⟨hgiven, hholds⟩ := through_eq hg h d
    have hsplit : past ++ d :: ds = past ++ [d] ++ ds := by simp
    have hone : (past ++ [d]).Pairwise (Load.Agrees g) ↔ ∀ e ∈ past, e.Agrees g d := by
      simp [List.pairwise_append, hpast]
    rw [outcomes, List.map_cons, List.cons.injEq, hgiven, given_eq_alone_iff hpast, ← hone, hsplit]
    constructor
    · rintro ⟨hd, hds⟩
      exact (ih hholds hd).1 hds
    · intro hall
      have hd := (List.pairwise_append.1 hall).1
      exact ⟨hd, (ih hholds hd).2 hall⟩

/-- Calls through an empty cache give what each of them gives alone exactly when each of them leaves
what the later ones under its key make. -/
theorem outcomes_eq_map_alone_iff (hg : g.IsSound) (ds : List Load) :
    outcomes g {} ds = ds.map (Load.alone g) ↔ ds.Pairwise (Load.Agrees g) :=
  outcomes_eq_map_alone_iff_of_holds hg holds_nil List.Pairwise.nil ds

end Cache
end Letterhead.Logo
