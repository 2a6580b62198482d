import Letterhead.Calendar.Instant
import Letterhead.Document.Author

/-!
Documents as Markdown: the content as it is, under its title. Where branding is enabled a list of
facts about the document follows.
-/

namespace Letterhead.Markdown

def facts (title : Text) (b : Branding) (m : Metadata) (now : Instant) : List Text :=
  [[], "---".toList, [], "*Document Information:*".toList] ++
    (if b.organization.isEmpty then [] else ["- Organization: ".toList ++ b.organization]) ++
    ["- Document: ".toList ++ title, "- Author: ".toList ++ m.authorFor b,
      "- Date: ".toList ++ now.date.long]

def endLine (t : Text) : Text := if t.getLast? == some '\n' then t else t ++ ['\n']

def document (title content : Text) (b : Branding) (m : Option Metadata) (now : Instant) : Text :=
  endLine (['\n'].intercalate
    (["# ".toList ++ title, [], content] ++
      if b.enabled then facts title b (m.getD {}) now else []))

end Letterhead.Markdown
