import Letterhead.Form.Reader

/-!
Formats of generated documents: pages for printing, Word documents, and Markdown.
-/

namespace Letterhead

inductive Format where
  | pdf
  | docx
  | md
deriving DecidableEq, Repr

namespace Format

def all : List Format := [pdf, docx, md]

def name : Format → Text
  | pdf => "pdf".toList
  | docx => "docx".toList
  | md => "md".toList

def mediaType : Format → Text
  | pdf => "application/pdf".toList
  | docx => "application/vnd.openxmlformats-officedocument.wordprocessingml.document".toList
  | md => "text/markdown".toList

def ofName? (t : Text) : Option Format := all.find? fun f => f.name == t

def read : Reader Format
  | .text t =>
    match ofName? t with
    | some f => .ok f
    | none => Checked.fault .choice
  | _ => Checked.fault .choice

theorem ofName?_name (f : Format) : ofName? f.name = some f := by
  cases f <;> decide

theorem ofName?_eq_some_iff {t : Text} {f : Format} : ofName? t = some f ↔ t = f.name := by
  constructor
  · intro h
    have := List.find?_some h
    simpa using (beq_iff_eq.mp this).symm
  · rintro rfl
    exact ofName?_name f

end Format
end Letterhead
