import Letterhead.Proofs.Store.Run
import Mathlib.Data.List.Induction

/-! Ledgers: a store beside the bytes that were rendered for its rows. A ledger stays intact exactly as
long as no operation writes other bytes over the file of a row, or removes a row that shares its file
with a row that stays. -/
namespace Letterhead

/-- A store with the bytes that were rendered for each row when it was recorded. -/
structure Ledger where
  store : Store
  rendered : Int → Option ByteArray

namespace Ledger

def noted (rendered : Int → Option ByteArray) (made : Except Failure (Branding × Rendering))
    (answer : Except Failure Descriptor) : Int → Option ByteArray :=
  match made, answer with
  | .ok (_, d), .ok desc =>
    if desc.thread = none then rendered
    else fun id => if desc.id = id then some d.bytes else rendered id
  | _, _ => rendered

def renderedAfter (w : Ledger) : Action → Int → Option ByteArray
  | .generate p now recording r =>
    noted w.rendered (p.make w.store.logos now r).1 (w.store.generate p now recording r).1
  | _ => w.rendered

def act (w : Ledger) (a : Action) : Ledger := ⟨w.store.act a, w.renderedAfter a⟩

def run (threads : List Text) (as : List Action) : Ledger :=
  as.foldl act ⟨.ofThreads threads, fun _ => none⟩

/-- Every row has a file of the size that is recorded, with the bytes that were rendered for it. -/
def Intact (w : Ledger) : Prop :=
  ∀ r ∈ w.store.rows, ∃ b, w.rendered r.id = some b ∧ w.store.files.get? r.path = some b ∧
    r.size = b.size

end Ledger

/-- The operation spoils the file of a row that stays: it writes other bytes over it, or it removes a
row with the same file. -/
def Store.Spoils (s : Store) (a : Action) : Prop :=
  match a with
  | .generate p now _ r => ∃ l b d, s.Writes p now r l b d ∧
      ∃ q ∈ s.rows, q.path = l ∧ s.files.get? l ≠ some d.bytes
  | .countUp _ _ | .replaceLogos _ => False
  | .delete _ _ | .sweep _ _ => ∃ r ∈ s.rows, r ∉ (s.act a).rows ∧
      ∃ q ∈ (s.act a).rows, q.path = r.path

namespace Ledger

theorem noted_error (rendered : Int → Option ByteArray)
    (made : Except Failure (Branding × Rendering)) (e : Failure) :
    noted rendered made (.error e) = rendered := by
  cases made <;> rfl

theorem run_concat (threads : List Text) (as : List Action) (a : Action) :
    run threads (as ++ [a]) = (run threads as).act a := by
  simp [run]

theorem store_run (threads : List Text) (as : List Action) :
    (run threads as).store = (Store.ofThreads threads).run as := by
  induction as using List.reverseRecOn with
  | nil => rfl
  | append_singleton as a ih =>
    rw [run_concat, act, ih, Store.run, Store.run, List.foldl_concat]

/-- Removing rows with their files keeps a ledger intact unless a row that stays shares a file with
one that goes. -/
theorem intact_purged_iff {w : Ledger} {t : Store} (h : w.Intact) (hp : Store.Purged w.store t) :
    Intact ⟨t, w.rendered⟩ ↔
      ¬ ∃ r ∈ w.store.rows, r ∉ t.rows ∧ ∃ q ∈ t.rows, q.path = r.path := by
  constructor
  · rintro hi ⟨r, hr, hgone, q, hq, hpath⟩
    obtain ⟨b, -, hfile, -⟩ := hi q hq
    rw [hpath, hp.gone r hr hgone] at hfile
    cases hfile
  · intro hs q hq
    obtain ⟨b, hb, hfile, hsize⟩ := h q (hp.rows.subset hq)
    have hframe : t.files.get? q.path = w.store.files.get? q.path := by
      refine hp.frame q.path fun r hr hpath => ?_
      by_contra hgone
      exact hs ⟨r, hr, hgone, q, hq, hpath.symm⟩
    exact ⟨b, hb, hframe.trans hfile, hsize⟩

theorem intact_putFile_iff {w : Ledger} (h : w.Intact) (l : Location) (b : ByteArray) :
    Intact ⟨w.store.putFile l b, w.rendered⟩ ↔
      ∀ q ∈ w.store.rows, q.path = l → w.store.files.get? l = some b := by
  constructor
  · rintro hi q hq rfl
    obtain ⟨c, hc, hold, -⟩ := h q hq
    obtain ⟨c', hc', hnew, -⟩ := hi q hq
    have hput : (w.store.putFile q.path b).files.get? q.path = some b := Files.get?_put_self _ _ _
    rw [hold, ← hc, hc', ← hnew, hput]
  · intro hl q hq
    obtain ⟨c, hc, hfile, hsize⟩ := h q hq
    refine ⟨c, hc, ?_, hsize⟩
    by_cases hpath : q.path = l
    · have hsame := hl q hq hpath
      rw [← hpath, hfile] at hsame
      rw [hsame, hpath]
      exact Files.get?_put_self _ _ _
    · exact (Files.get?_put_of_ne hpath _ _).trans hfile

theorem intact_insert_iff {w : Ledger} {r : Row} {b : ByteArray} (hid : r.id = w.store.nextId)
    (hfile : w.store.files.get? r.path = some b) (hsize : r.size = b.size) :
    Intact ⟨w.store.insert r, fun id => if r.id = id then some b else w.rendered id⟩ ↔
      w.Intact := by
  have hold : ∀ q ∈ w.store.rows,
      (if r.id = q.id then some b else w.rendered q.id) = w.rendered q.id := by
    intro q hq
    have hlt := Store.id_lt_nextId hq
    rw [if_neg (by omega)]
  constructor
  · intro hi q hq
    obtain ⟨c, hc, hrest⟩ := hi q (List.mem_append_left _ hq)
    exact ⟨c, (hold q hq).symm.trans hc, hrest⟩
  · intro h q hq
    rcases List.mem_append.1 hq with hq | hq
    · obtain ⟨c, hc, hrest⟩ := h q hq
      exact ⟨c, (hold q hq).trans hc, hrest⟩
    · obtain rfl := List.mem_singleton.1 hq
      exact ⟨b, if_pos rfl, hfile, hsize⟩

theorem intact_generate_iff {w : Ledger} (h : w.Intact) (p : Press) (now : Instant) (r : Request) :
    (w.act (.generate p now .succeeds r)).Intact ↔
      ¬ w.store.Spoils (.generate p now .succeeds r) := by
  have hgen := w.store.generates_generate p now .succeeds r .unbounded
  have hmade : Intact ⟨w.store.afterMake p now r, w.rendered⟩ := h
  -- Wherever a file has been written, the rows with that file decide.
  have hput : ∀ {l b d}, w.store.Writes p now r l b d →
      (Intact ⟨w.store.afterWrite p now r l d, w.rendered⟩ ↔
        ¬ w.store.Spoils (.generate p now .succeeds r)) := by
    intro l b d hw
    rw [Store.afterWrite, intact_putFile_iff hmade]
    constructor
    · rintro hl ⟨m, c, e, hw', q, hq, hpath, hne⟩
      obtain ⟨rfl, rfl, rfl⟩ := hw.unique hw'
      exact hne (hl q hq hpath)
    · intro hs q hq hpath
      by_contra hne
      exact hs ⟨l, b, d, hw, q, hq, hpath, hne⟩
  simp only [act, Store.act, renderedAfter]
  generalize w.store.generate p now .succeeds r = x at hgen
  cases hgen with
  | refused e hw =>
    rw [noted_error]
    have hs : ¬ w.store.Spoils (.generate p now .succeeds r) := by
      rintro ⟨l, b, d, hw', -⟩
      exact hw l b d hw'
    exact iff_of_true h hs
  | unrecorded hw _ =>
    rw [hw.make]
    exact hput hw
  | overflows hw _ _ =>
    rw [noted_error]
    exact hput hw
  | full _ _ _ hnumber => cases hnumber
  | @recorded l b d thread expires id hw _ _ hnumber =>
    obtain rfl : w.store.nextId = id := Option.some.inj hnumber
    have hnoted : noted w.rendered (p.make w.store.logos now r).1
        (.ok (Store.descriptorOf w.store.nextId now r thread (r.filename now) l d expires)) =
          fun id => if w.store.nextId = id then some d.bytes else w.rendered id := by
      rw [hw.make, noted, if_neg (by simp [Store.descriptorOf])]
      rfl
    rw [Store.record, Store.descriptor_rowOf, hnoted]
    have hfile : (w.store.afterWrite p now r l d).files.get? l = some d.bytes :=
      Files.get?_put_self _ _ _
    exact (intact_insert_iff (w := ⟨w.store.afterWrite p now r l d, w.rendered⟩) rfl hfile rfl).trans
      (hput hw)

/-- A reliable operation keeps a ledger intact exactly when it spoils no file. -/
theorem intact_act_iff {w : Ledger} (hk : w.store.Keyed) (h : w.Intact) {a : Action}
    (ha : a.IsReliable) : (w.act a).Intact ↔ ¬ w.store.Spoils a := by
  cases a with
  | generate p now recording r =>
    obtain rfl : recording = .succeeds := ha
    exact intact_generate_iff h p now r
  | delete commits id =>
    obtain rfl : commits = true := ha
    exact intact_purged_iff h (Store.purged_delete hk id)
  | sweep commits now => exact intact_purged_iff h (Store.purged_sweep ha hk now)
  | countUp commits id =>
    obtain ⟨f, hrows, hf⟩ := Store.rows_countUp commits w.store id
    have hfiles := Store.files_countUp commits w.store id
    have hi : (w.act (.countUp commits id)).Intact := by
      intro q hq
      simp only [act, Store.act, hrows, List.mem_map] at hq
      obtain ⟨r, hr, rfl⟩ := hq
      obtain ⟨n, hn⟩ := hf r
      obtain ⟨b, hb, hfile, hsize⟩ := h r hr
      refine ⟨b, ?_, ?_, ?_⟩
      · simpa [hn, act, renderedAfter] using hb
      · simpa [hn, act, Store.act, hfiles] using hfile
      · simpa [hn] using hsize
    exact iff_of_true hi fun hs => hs
  | replaceLogos logos => exact iff_of_true h fun hs => hs

/-- A run is intact at every moment exactly when no operation of it spoils a file. -/
theorem intact_prefixes_iff (threads : List Text) {as : List Action}
    (has : ∀ a ∈ as, a.IsReliable) :
    (∀ bs, bs <+: as → (run threads bs).Intact) ↔
      ∀ bs a, bs ++ [a] <+: as → ¬ (run threads bs).store.Spoils a := by
  have hkeyed : ∀ bs, (run threads bs).store.Keyed := fun bs => by
    rw [store_run]
    exact Store.keyed_run threads bs
  have hlast : ∀ {bs a}, bs ++ [a] <+: as → a.IsReliable := fun {bs a} hp =>
    has a (hp.subset (by simp))
  constructor
  · intro hi bs a hp
    have hbs : bs <+: as := (List.prefix_append bs [a]).trans hp
    have hnext := hi _ hp
    rw [run_concat] at hnext
    exact (intact_act_iff (hkeyed bs) (hi bs hbs) (hlast hp)).1 hnext
  · intro hs bs
    -- The last operation finds a ledger that is intact by what came before.
    induction bs using List.reverseRecOn with
    | nil => exact fun _ r hr => by cases hr
    | append_singleton bs a ih =>
      intro hp
      have hbs : bs <+: as := (List.prefix_append bs [a]).trans hp
      rw [run_concat]
      exact (intact_act_iff (hkeyed bs) (ih hbs) (hlast hp)).2 (hs bs a hp)

end Ledger

end Letterhead
