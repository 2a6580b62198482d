import Letterhead.Text.Basic

/-!
Locations of files, told from the output folder. A name with slashes leads through folders that there
are, two points lead up, and a leading slash leads to the top. Which folders there are belongs to the
surroundings.
-/

namespace Letterhead

/-- The folder that a file stands in: so many steps above the output folder, the topmost one, or
another one by its path. -/
inductive Folder where
  | above (steps : Nat)
  | top
  | named (path : Text)
deriving DecidableEq, Repr

namespace Folder

def output : Folder := .above 0

def up : Folder → Folder
  | above n => above (n + 1)
  | top | named _ => top

end Folder

/-- The folders that there are: the one that a step leads down to, and the next one up. -/
structure Layout where
  step? : Folder → Text → Option Folder := fun _ _ => none
  parent : Folder → Folder := Folder.up

structure Location where
  folder : Folder
  name : Text
deriving DecidableEq, Repr

namespace Location

def isDirect (l : Location) : Bool := l.folder = .output

def text (l : Location) : Text :=
  match l.folder with
  | .above n => Text.times "../".toList n ++ l.name
  | .top => '/' :: l.name
  | .named path => path ++ '/' :: l.name

/-- The steps of a name: what stands between slashes, without empty steps and single points. -/
def steps (name : Text) : List Text :=
  (name.splitOn '/').filter fun s => !s.isEmpty && s != ['.']

def origin (name : Text) : Folder := if name.head? = some '/' then .top else .output

def upwards : Text := "..".toList

/-- Where a name leads: to a location; to a folder; or to a step that has to be a folder and is
none. -/
inductive Route where
  | file (l : Location)
  | folder
  | blocked (l : Location)
deriving DecidableEq, Repr

def follow (t : Layout) (f : Folder) : List Text → Route
  | [] => .folder
  | [s] => if s = upwards || (t.step? f s).isSome then .folder else .file ⟨f, s⟩
  | s :: rest =>
    if s = upwards then follow t (t.parent f) rest
    else
      match t.step? f s with
      | some g => follow t g rest
      | none => .blocked ⟨f, s⟩

def route (t : Layout) (name : Text) : Route := follow t (origin name) (steps name)

end Location
end Letterhead
