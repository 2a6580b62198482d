import Letterhead.Logo.Cache
import Letterhead.Store.Files
import Letterhead.Store.Row

/-!
The store: threads, the rows of their documents, files, and the cache of logos. Every operation gives
the store after it, also when it fails. Rows are found by number; a number beyond 64 bits is no key,
and asking for it fails.
-/

namespace Letterhead

structure Store where
  threads : List Text := []
  rows : List Row := []
  files : Files := {}
  logos : Logo.Cache := {}

/-- How rows are numbered: without end, or by keys. Once the greatest key is in use, a number is drawn
that is not. -/
inductive Numbering where
  | unbounded
  | keyed (draw : List Int → Option Int)

namespace Store

def keyLimit : Int := (Nat.pow 2 63 : Nat)

def isKey (id : Int) : Bool := -keyLimit ≤ id && id < keyLimit

def hasThread (s : Store) (thread : Text) : Bool := s.threads.contains thread

def addThread? (s : Store) (thread : Text) : Option Store :=
  if s.hasThread thread then none else some { s with threads := s.threads ++ [thread] }

def row? (s : Store) (id : Int) : Except Failure (Option Row) :=
  if isKey id then .ok (s.rows.find? fun r => r.id = id) else .error .overflow

def nextId (s : Store) : Int :=
  match (s.rows.map Row.id).max? with
  | some n => n + 1
  | none => 1

/-- A number can be given to a row: it is a key, greater than zero, and no row has it. -/
def isFree (s : Store) (id : Int) : Bool := isKey id && 0 < id && s.rows.all fun r => r.id != id

def number? (s : Store) : Numbering → Option Int
  | .unbounded => some s.nextId
  | .keyed draw =>
    if isKey s.nextId then some s.nextId else (draw (s.rows.map Row.id)).filter s.isFree

def update (s : Store) (id : Int) (f : Row → Row) : Store :=
  { s with rows := s.rows.map fun r => if r.id = id then f r else r }

def insert (s : Store) (r : Row) : Store := { s with rows := s.rows ++ [r] }

def erase (s : Store) (id : Int) : Store := { s with rows := s.rows.filter fun r => r.id != id }

def eraseFile (s : Store) (l : Location) : Store := { s with files := s.files.erase l }

def get? (s : Store) (id : Int) : Except Failure (Option Descriptor) := do
  match ← s.row? id with
  | some r => return some (← r.descriptor)
  | none => return none

def documents (s : Store) (thread : Text) : Except Failure (List Descriptor) :=
  ((s.rows.filter fun r => r.thread = thread).mergeSort Row.laterFirst).mapM Row.descriptor

def expired (s : Store) (now : Instant) : Except Failure (List Descriptor) :=
  ((s.rows.filter fun r => r.isExpired now).mergeSort Row.soonerFirst).mapM Row.descriptor

/-- Deletes the document of a number, its file first, and tells whether there was one. Where the
change cannot be committed the row stays. -/
def delete (commits : Bool) (s : Store) (id : Int) : Except Failure Bool × Store :=
  match s.row? id with
  | .error e => (.error e, s)
  | .ok none => (.ok false, s)
  | .ok (some r) =>
    if commits then (.ok true, (s.eraseFile r.path).erase id)
    else (.error .commitFailed, s.eraseFile r.path)

/-- Deletes the documents of some numbers in order and counts them; the first failure ends it. -/
def deleteAll (commits : Int → Bool) (s : Store) : List Int → Nat → Except Failure Nat × Store
  | [], n => (.ok n, s)
  | id :: rest, n =>
    match s.delete (commits id) id with
    | (.error e, s) => (.error e, s)
    | (.ok deleted, s) => deleteAll commits s rest (if deleted then n + 1 else n)

def sweep (commits : Int → Bool) (s : Store) (now : Instant) : Except Failure Nat × Store :=
  match s.expired now with
  | .error e => (.error e, s)
  | .ok ds => deleteAll commits s (ds.map Descriptor.id) 0

/-- Counts a download of the document of a number. What fails changes nothing. -/
def countUp (commits : Bool) (s : Store) (id : Int) : Store :=
  if commits && isKey id then s.update id fun r => { r with downloads := r.downloads + 1 } else s

def downloads (s : Store) (id : Int) : Except Failure Int :=
  (s.row? id).map fun r => (r.map Row.downloads).getD 0

@[simp] theorem rows_eraseFile (s : Store) (l : Location) : (s.eraseFile l).rows = s.rows := rfl

@[simp] theorem files_erase (s : Store) (id : Int) : (s.erase id).files = s.files := rfl

@[simp] theorem files_update (s : Store) (id : Int) (f : Row → Row) :
    (s.update id f).files = s.files := rfl

theorem mem_rows_erase {s : Store} {id : Int} {r : Row} :
    r ∈ (s.erase id).rows ↔ r ∈ s.rows ∧ r.id ≠ id := by
  simp [erase]

theorem id_lt_nextId {s : Store} {r : Row} (h : r ∈ s.rows) : r.id < s.nextId := by
  unfold nextId
  have hmem : r.id ∈ s.rows.map Row.id := List.mem_map_of_mem h
  cases hm : (s.rows.map Row.id).max? with
  | none =>
    rw [List.max?_eq_none_iff] at hm
    simp [hm] at hmem
  | some n => exact Int.lt_add_one_of_le ((List.max?_eq_some_iff.1 hm).2 _ hmem)

theorem id_ne_of_number? {s : Store} {numbering : Numbering} {id : Int}
    (h : s.number? numbering = some id) {r : Row} (hr : r ∈ s.rows) : r.id ≠ id := by
  have hnext : id = s.nextId → r.id ≠ id := fun he => he ▸ Int.ne_of_lt (id_lt_nextId hr)
  cases numbering with
  | unbounded => exact hnext (Option.some.inj h).symm
  | keyed draw =>
    rw [number?] at h
    split at h
    · exact hnext (Option.some.inj h).symm
    · obtain ⟨-, hfree⟩ := Option.filter_eq_some_iff.1 h
      simp only [isFree, Bool.and_eq_true, List.all_eq_true, bne_iff_ne] at hfree
      exact hfree.2 r hr

theorem isKey_of_number? {s : Store} {draw : List Int → Option Int} {id : Int}
    (h : s.number? (.keyed draw) = some id) : isKey id = true := by
  rw [number?] at h
  split at h
  · next hkey => exact Option.some.inj h ▸ hkey
  · obtain ⟨-, hfree⟩ := Option.filter_eq_some_iff.1 h
    simp only [isFree, Bool.and_eq_true] at hfree
    exact hfree.1.1

end Store
end Letterhead
