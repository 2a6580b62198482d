import Letterhead.Document.Request

/-!
The author and the keywords that stand in a document.
-/

namespace Letterhead

/-- The author of a document without author and organization, and the maker of every page. -/
def generatorName : Text := "Document Generator".toList

namespace Metadata

def authorFor (m : Metadata) (b : Branding) : Text :=
  match m.author with
  | some (c :: t) => c :: t
  | _ => if b.organization.isEmpty then generatorName else b.organization

def subjectText (m : Metadata) : Text := m.subject.getD []

def keywordText (m : Metadata) : Text := ", ".toList.intercalate m.keywords

end Metadata
end Letterhead
