import Letterhead.Word.Body

/-!
The styles of a Word document: that of plain text, and those of three levels of headings.
-/

namespace Letterhead.Word

def styleFonts (font : Text) : Xml :=
  .element "w:rFonts" [("w:ascii", font), ("w:eastAsia", font), ("w:hAnsi", font)] []

def revision : Xml := Xml.value "w:rsid" "00FC693F".toList

def plainStyle (th : Theme) : Xml :=
  .element "w:style"
    [("w:default", ['1']), ("w:styleId", "Normal".toList), ("w:type", "paragraph".toList)]
    [Xml.value "w:name" "Normal".toList, Xml.group "w:qFormat" [], revision,
      Xml.group "w:pPr" [Spacing.xml { line := some 276 }],
      Xml.group "w:rPr" [styleFonts th.font, Xml.value "w:sz" "24".toList]]

structure HeadingLook where
  before : Nat
  after : Nat
  size : Nat
  complexSize : Option Nat
deriving DecidableEq, Repr

def headingLook : Nat → HeadingLook
  | 1 => ⟨400, 200, 40, some 28⟩
  | 2 => ⟨300, 150, 32, some 26⟩
  | _ => ⟨240, 120, 28, none⟩

def levelStyle (th : Theme) (level : Nat) : Xml :=
  let look := headingLook level
  let id := headingStyle level
  .element "w:style" [("w:styleId", id.toList), ("w:type", "paragraph".toList)]
    ([Xml.value "w:name" ("heading ".toList ++ natText level),
        Xml.value "w:basedOn" "Normal".toList, Xml.value "w:next" "Normal".toList,
        Xml.value "w:link" (id ++ "Char").toList, Xml.value "w:uiPriority" ['9']] ++
      (if level = 1 then [] else [Xml.group "w:unhideWhenUsed" []]) ++
      [Xml.group "w:qFormat" [], revision,
        Xml.group "w:pPr"
          [Xml.group "w:keepNext" [], Xml.group "w:keepLines" [],
            Spacing.xml { after := some look.after, before := some look.before },
            Xml.value "w:outlineLvl" (natText (level - 1))],
        Xml.group "w:rPr"
          ([styleFonts th.font, Xml.group "w:b" [], Xml.group "w:bCs" [],
              Xml.value "w:i" ['0'], Xml.value "w:color" th.primary,
              Xml.value "w:sz" (natText look.size)] ++
            (look.complexSize.map fun n => Xml.value "w:szCs" (natText n)).toList)])

def styles (th : Theme) : List (Text × Xml) :=
  ("Normal".toList, plainStyle th) ::
    [1, 2, 3].map fun level => ("Heading ".toList ++ natText level, levelStyle th level)

end Letterhead.Word
