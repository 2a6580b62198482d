import Letterhead.Failure
import Letterhead.Store.Location

/-!
Files by their location. Writing a file replaces it; a name that leads to a folder, or through what
is no folder, cannot be written.
-/

namespace Letterhead

structure Files where
  entries : List (Location × ByteArray) := []

namespace Files

def get? (fs : Files) (l : Location) : Option ByteArray := fs.entries.lookup l

def has (fs : Files) (l : Location) : Bool := (fs.get? l).isSome

def put (fs : Files) (l : Location) (b : ByteArray) : Files :=
  ⟨if fs.has l then fs.entries.map fun e => if e.1 = l then (l, b) else e
    else fs.entries ++ [(l, b)]⟩

def erase (fs : Files) (l : Location) : Files := ⟨fs.entries.filter fun e => e.1 != l⟩

def stepLimit : Nat := 255

def isTooLong (name : Text) : Bool :=
  (Location.steps name).any fun s => stepLimit < (Text.utf8 s).size

def target (fs : Files) (name : Text) (t : Layout := {}) : Except Failure Location :=
  if name.contains '\x00' then .error .nulInPath
  else
    match Location.route t name with
    | .blocked l => .error (if isTooLong l.name then .nameTooLong
        else if fs.has l then .notAFolder else .fileMissing)
    | .folder => .error .isFolder
    | .file l => if isTooLong l.name then .error .nameTooLong else .ok l

def write (fs : Files) (name : Text) (b : ByteArray) (t : Layout := {}) :
    Except Failure (Location × Files) := do
  let l ← fs.target name t
  return (l, fs.put l b)

def find? (fs : Files) (name : Text) (t : Layout := {}) : Except Failure (Option Location) :=
  if name.contains '\x00' then .ok none
  else
    match Location.route t name with
    | .blocked l => if isTooLong l.name then .error .nameTooLong else .ok none
    | .folder => .ok none
    | .file l =>
      if isTooLong l.name then .error .nameTooLong
      else .ok (if fs.has l then some l else none)

def read (fs : Files) (name : Text) (t : Layout := {}) : Except Failure (Option ByteArray) := do
  return (← fs.find? name t).bind fs.get?

def remove (fs : Files) (name : Text) (t : Layout := {}) : Except Failure (Bool × Files) := do
  match ← fs.find? name t with
  | some l => return (true, fs.erase l)
  | none => return (false, fs)

def names (fs : Files) : List Text :=
  ((fs.entries.filter fun e => e.1.isDirect).map fun e => e.1.name).mergeSort Text.le

theorem get?_put_self (fs : Files) (l : Location) (b : ByteArray) :
    (fs.put l b).get? l = some b := by
  unfold put get? has get?
  split
  · next h =>
    generalize fs.entries = es at h
    induction es with
    | nil => simp at h
    | cons e rest ih =>
      obtain ⟨k, v⟩ := e
      by_cases hk : k = l
      · simp [hk]
      · have hk' : (l == k) = false := beq_eq_false_iff_ne.mpr (Ne.symm hk)
        simp only [List.lookup_cons, hk'] at h
        simp [hk, hk', List.lookup_cons, ih h]
  · next h =>
    generalize fs.entries = es at h
    induction es with
    | nil => simp
    | cons e rest ih =>
      obtain ⟨k, v⟩ := e
      by_cases hk : l = k
      · subst hk
        simp at h
      · have hk' : (l == k) = false := beq_eq_false_iff_ne.mpr hk
        simp only [List.lookup_cons, hk'] at h
        simp [List.lookup_cons, hk', ih h]

theorem get?_put_of_ne {l m : Location} (h : m ≠ l) (fs : Files) (b : ByteArray) :
    (fs.put l b).get? m = fs.get? m := by
  unfold put get?
  split
  · generalize fs.entries = es
    induction es with
    | nil => rfl
    | cons e rest ih =>
      obtain ⟨k, v⟩ := e
      by_cases hk : k = l
      · have hm : (m == l) = false := beq_eq_false_iff_ne.mpr h
        simp [hk, List.lookup_cons, hm, ih]
      · simp [hk, List.lookup_cons, ih]
  · generalize fs.entries = es
    have hm : (m == l) = false := beq_eq_false_iff_ne.mpr h
    induction es with
    | nil => simp [List.lookup_cons, hm]
    | cons e rest ih =>
      obtain ⟨k, v⟩ := e
      simp [List.lookup_cons, ih]

theorem get?_erase_self (fs : Files) (l : Location) : (fs.erase l).get? l = none := by
  unfold erase get?
  generalize fs.entries = es
  induction es with
  | nil => rfl
  | cons e rest ih =>
    obtain ⟨k, v⟩ := e
    by_cases hk : k = l
    · simp [hk, ih]
    · have hk' : (l == k) = false := beq_eq_false_iff_ne.mpr (Ne.symm hk)
      simp [hk, List.lookup_cons, hk', ih]

theorem get?_erase_of_ne {l m : Location} (h : m ≠ l) (fs : Files) :
    (fs.erase l).get? m = fs.get? m := by
  unfold erase get?
  generalize fs.entries = es
  induction es with
  | nil => rfl
  | cons e rest ih =>
    obtain ⟨k, v⟩ := e
    by_cases hk : k = l
    · have hm : (m == l) = false := beq_eq_false_iff_ne.mpr h
      simp [hk, List.lookup_cons, hm, ih]
    · simp [hk, List.lookup_cons, ih]

end Files
end Letterhead
