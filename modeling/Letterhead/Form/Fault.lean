import Letterhead.Text.Basic

/-!
Faults: what is wrong with a value that was read, and where in it. A reading that fails reports all
its faults, in the order in which the parts of the value are declared.
-/

namespace Letterhead

inductive FaultKind where
  | missing
  | jsonInvalid
  | boolType
  | boolParsing
  | textType
  | intType
  | intParsing
  | intFromFloat
  | intParsingSize
  | floatType
  | floatParsing
  | notFinite
  | listType
  | objectType
  | recordType
  | bodyType
  | choice
  | instantType
  | tooSmall
  | tooLarge
deriving DecidableEq, Repr

def FaultKind.word : FaultKind → String
  | missing => "missing"
  | jsonInvalid => "json_invalid"
  | boolType => "bool_type"
  | boolParsing => "bool_parsing"
  | textType => "string_type"
  | intType => "int_type"
  | intParsing => "int_parsing"
  | intFromFloat => "int_from_float"
  | intParsingSize => "int_parsing_size"
  | floatType => "float_type"
  | floatParsing => "float_parsing"
  | notFinite => "finite_number"
  | listType => "list_type"
  | objectType => "dict_type"
  | recordType => "model_type"
  | bodyType => "model_attributes_type"
  | choice => "enum"
  | instantType => "datetime_type"
  | tooSmall => "greater_than_equal"
  | tooLarge => "less_than_equal"

/-- One step into a value: a field by the name it was written with, or a place in a list. -/
inductive PathStep where
  | field (name : Text)
  | index (n : Nat)
deriving DecidableEq, Repr

structure Fault where
  kind : FaultKind
  path : List PathStep := []
deriving DecidableEq, Repr

namespace Fault

def under (s : PathStep) (f : Fault) : Fault := { f with path := s :: f.path }

end Fault

inductive Checked (α : Type) where
  | ok (value : α)
  | faulty (faults : List Fault)
deriving Repr

namespace Checked

variable {α β : Type}

def fault (kind : FaultKind) : Checked α := .faulty [⟨kind, []⟩]

def under (s : PathStep) : Checked α → Checked α
  | .ok a => .ok a
  | .faulty fs => .faulty (fs.map (Fault.under s))

/-- Applies a function that was read to an argument that was read; faults of both are kept. -/
def ap : Checked (α → β) → Checked α → Checked β
  | .ok f, .ok a => .ok (f a)
  | .ok _, .faulty fs => .faulty fs
  | .faulty fs, .ok _ => .faulty fs
  | .faulty fs, .faulty gs => .faulty (fs ++ gs)

instance : Applicative Checked where
  pure := .ok
  seq f x := ap f (x ())

def andThen (x : Checked α) (f : α → Checked β) : Checked β :=
  match x with
  | .ok a => f a
  | .faulty fs => .faulty fs

def allFrom : Nat → List (Checked α) → Checked (List α)
  | _, [] => .ok []
  | n, x :: rest => List.cons <$> under (.index n) x <*> allFrom (n + 1) rest

theorem seq_ok_iff {f : Checked (α → β)} {x : Checked α} {b : β} :
    f <*> x = .ok b ↔ ∃ g a, f = .ok g ∧ x = .ok a ∧ g a = b := by
  change ap f x = .ok b ↔ _
  cases f <;> cases x <;> simp [ap]

theorem map_ok_iff {f : α → β} {x : Checked α} {b : β} :
    f <$> x = .ok b ↔ ∃ a, x = .ok a ∧ f a = b := by
  change ap (.ok f) x = .ok b ↔ _
  cases x <;> simp [ap]

end Checked
end Letterhead
