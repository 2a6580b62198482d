import Letterhead.Branding.Patch

/-!
Problems of a branding as it is written, before it is read. Each problem is a sentence; a branding
without problems has an empty list.
-/

namespace Letterhead

namespace Branding

def logoLimit : Nat := 2000

def organizationLimit : Nat := 200

def contentLimit : Nat := 500

def firstValue? (names : List Text) (fields : Named Json) : Option Json :=
  names.findSome? fun n =>
    match fields.lookup n with
    | some .null => none
    | v => v

def colourNames : List Text := ["primary_color".toList, "primaryColor".toList]

def logoNames : List Text :=
  ["logo_url".toList, "logoUrl".toList, "logoSource".toList, "logo_source".toList]

def organizationNames : List Text := ["organization_name".toList, "organizationName".toList]

/-- A text is a number sign with six hexadecimal digits; a line feed may end it. -/
def isStrictColour (t : Text) : Bool :=
  match t with
  | '#' :: ds =>
    (ds.take 6).length == 6 && (ds.take 6).all (fun c => (hexDigit? c).isSome) &&
      (ds.drop 6 == [] || ds.drop 6 == ['\n'])
  | _ => false

def tooLong (name : Text) (limit : Nat) : Text :=
  name ++ " is too long (max ".toList ++ natText limit ++ " characters)".toList

def lengthProblem (name : String) (limit : Nat) : Option Json → List Text
  | some v => if limit < v.displayTruthy.length then [tooLong name.toList limit] else []
  | none => []

def colourProblem : Option Json → List Text
  | some v =>
    if v.isTruthy && !isStrictColour v.display then
      ["primaryColor must be a valid hex color (e.g., #003366)".toList]
    else []
  | none => []

def sectionContent? (name : String) (fields : Named Json) : Option Json :=
  (fields.lookup name.toList).bind fun part => part.field? "content".toList

def problems (fields : Named Json) : List Text :=
  colourProblem (firstValue? colourNames fields) ++
    lengthProblem "logoUrl" logoLimit (firstValue? logoNames fields) ++
    lengthProblem "organizationName" organizationLimit (firstValue? organizationNames fields) ++
    lengthProblem "header content" contentLimit (sectionContent? "header" fields) ++
    lengthProblem "footer content" contentLimit (sectionContent? "footer" fields)

def soughtNames : List Text := colourNames ++ logoNames ++ organizationNames

/-- The problems of a written branding. Null has none. A text or a list is searched for the names
like an object, and fails where a name is found or else where a section is wanted. -/
def check : Json → Except Failure (List Text)
  | .null => .ok []
  | .object fields => .ok (problems fields)
  | .text t =>
    .error (if soughtNames.any fun n => Text.holds t n then .wrongType else .notAnObject)
  | .array items =>
    .error (if soughtNames.any fun n => items.any fun v =>
        match v with
        | .text t => t == n
        | _ => false
      then .wrongType else .notAnObject)
  | _ => .error .wrongType

end Branding
end Letterhead
