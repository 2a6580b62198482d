import Letterhead.Number.Numeral
import Letterhead.Text.Blank
import Letterhead.Word.Xml

/-!
Elements of a Word document: paragraphs of runs, fields and pictures, and tables of paragraphs.
Sizes of text count half points, spacing and widths twentieths of a point.
-/

namespace Letterhead.Word

/-- How a run of text looks; what is not said comes from the style of the paragraph. -/
structure RunStyle where
  font : Option Text := none
  bold : Option Bool := none
  colour : Option Text := none
  size : Option Nat := none
deriving DecidableEq, Repr

/-- What stands in a paragraph. A picture has its sides in units of `1 / 914400` inch. -/
inductive Content where
  | run (style : RunStyle) (text : Text)
  | field (instruction : Text) (style : RunStyle) (placeholder : Text)
  | picture (name : Text) (width height : Int)
deriving DecidableEq, Repr

inductive Edge where
  | top
  | bottom
deriving DecidableEq, Repr

structure Border where
  edge : Edge
  colour : Text
  size : Nat
  space : Nat
deriving DecidableEq, Repr

structure Spacing where
  after : Option Nat := none
  before : Option Nat := none
  line : Option Nat := none
deriving DecidableEq, Repr

inductive Alignment where
  | left
  | center
  | right
deriving DecidableEq, Repr

structure Paragraph where
  style : Option String := none
  border : Option Border := none
  spacing : Option Spacing := none
  alignment : Option Alignment := none
  content : List Content := []
deriving DecidableEq, Repr

structure Cell where
  width : Nat
  fill : Option Text := none
  padded : Bool := false
  paragraphs : List Paragraph
deriving DecidableEq, Repr

structure Row where
  head : Bool := false
  cells : List Cell
deriving DecidableEq, Repr

structure Table where
  centered : Bool := false
  widths : List Nat
  rows : List Row
deriving DecidableEq, Repr

inductive Element where
  | paragraph (p : Paragraph)
  | table (t : Table)
deriving DecidableEq, Repr

def Element.paragraphs : Element → List Paragraph
  | paragraph p => [p]
  | table t => t.rows.flatMap fun r => r.cells.flatMap Cell.paragraphs

/-! Elements as XML -/

def numeral (n : Nat) : String := String.ofList (natText n)

def stretch (t : Text) : List Xml :=
  if t.isEmpty then []
  else
    let keep := if (Text.trim t).length < t.length then [("xml:space", "preserve".toList)] else []
    [.element "w:t" keep [.text t]]

def breakXml (c : Char) : Xml := Xml.group (if c = '\t' then "w:tab" else "w:br") []

def isBreak (c : Char) : Bool := c == '\t' || c == '\n' || c == '\r'

/-- The content of a run from some place on; the stretch before it is given last character first. -/
def textXmlFrom (before : Text) : Text → List Xml
  | [] => stretch before.reverse
  | c :: rest =>
    if isBreak c then stretch before.reverse ++ breakXml c :: textXmlFrom [] rest
    else textXmlFrom (c :: before) rest

def textXml (t : Text) : List Xml := textXmlFrom [] t

def RunStyle.xml (s : RunStyle) : List Xml :=
  let parts :=
    (s.font.map fun f => Xml.element "w:rFonts" [("w:ascii", f), ("w:hAnsi", f)] []).toList ++
    (s.bold.map fun b => if b then Xml.group "w:b" [] else Xml.value "w:b" ['0']).toList ++
    (s.colour.map fun c => Xml.value "w:color" c).toList ++
    (s.size.map fun n => Xml.value "w:sz" (natText n)).toList
  if parts.isEmpty then [] else [Xml.group "w:rPr" parts]

def runXml (s : RunStyle) (t : Text) : Xml := Xml.group "w:r" (s.xml ++ textXml t)

def extent (name : String) (width height : Int) : Xml :=
  .element name [("cx", intText width), ("cy", intText height)] []

def pictureXml (name : Text) (width height : Int) : Xml :=
  let properties := Xml.group "pic:nvPicPr"
    [.element "pic:cNvPr" [("id", ['0']), ("name", name)] [], Xml.group "pic:cNvPicPr" []]
  let fill := Xml.group "pic:blipFill"
    [Xml.leaf "a:blip" [("r:embed", "rId1")],
      Xml.group "a:stretch" [Xml.group "a:fillRect" []]]
  let shape := Xml.group "pic:spPr"
    [Xml.group "a:xfrm" [Xml.leaf "a:off" [("x", "0"), ("y", "0")], extent "a:ext" width height],
      Xml.leaf "a:prstGeom" [("prst", "rect")]]
  let graphic := Xml.group "a:graphic"
    [.element "a:graphicData"
      [("uri", "http://schemas.openxmlformats.org/drawingml/2006/picture".toList)]
      [Xml.group "pic:pic" [properties, fill, shape]]]
  Xml.group "w:r" [Xml.group "w:drawing" [Xml.group "wp:inline"
    [extent "wp:extent" width height, Xml.leaf "wp:docPr" [("id", "1"), ("name", "Picture 1")],
      Xml.group "wp:cNvGraphicFramePr" [Xml.leaf "a:graphicFrameLocks" [("noChangeAspect", "1")]],
      graphic]]]

def Content.xml : Content → Xml
  | run s t => runXml s t
  | field instruction s placeholder =>
    .element "w:fldSimple" [("w:instr", ' ' :: instruction ++ [' '])] [runXml s placeholder]
  | picture name width height => pictureXml name width height

def Border.xml (b : Border) : Xml :=
  Xml.group "w:pBdr" [.element (match b.edge with | .top => "w:top" | .bottom => "w:bottom")
    [("w:color", b.colour), ("w:space", natText b.space), ("w:sz", natText b.size),
      ("w:val", "single".toList)] []]

def Spacing.xml (s : Spacing) : Xml :=
  Xml.leaf "w:spacing"
    ((s.after.map fun n => ("w:after", numeral n)).toList ++
      (s.before.map fun n => ("w:before", numeral n)).toList ++
      match s.line with
      | some n => [("w:line", numeral n), ("w:lineRule", "auto")]
      | none => [])

def Alignment.xml (a : Alignment) : Xml :=
  Xml.value "w:jc" (match a with | .left => "left" | .center => "center" | .right => "right").toList

def Paragraph.xml (p : Paragraph) : Xml :=
  let properties :=
    (p.style.map fun s => Xml.value "w:pStyle" s.toList).toList ++
    (p.border.map Border.xml).toList ++ (p.spacing.map Spacing.xml).toList ++
    (p.alignment.map Alignment.xml).toList
  Xml.group "w:p"
    ((if properties.isEmpty then [] else [Xml.group "w:pPr" properties]) ++
      p.content.map Content.xml)

def widthXml (name kind : String) (n : Nat) : Xml :=
  Xml.leaf name [("w:type", kind), ("w:w", numeral n)]

def paddingXml : Xml :=
  Xml.group "w:tcMar" [widthXml "w:top" "dxa" 100, widthXml "w:bottom" "dxa" 100,
    widthXml "w:start" "dxa" 200, widthXml "w:end" "dxa" 200]

def fillXml (colour : Text) : Xml :=
  .element "w:shd" [("w:color", "auto".toList), ("w:fill", colour), ("w:val", "clear".toList)] []

def Cell.xml (c : Cell) : Xml :=
  Xml.group "w:tc"
    (Xml.group "w:tcPr"
      (widthXml "w:tcW" "dxa" c.width :: (c.fill.map fillXml).toList ++
        if c.padded then [paddingXml] else []) ::
      c.paragraphs.map Paragraph.xml)

def Row.xml (r : Row) : Xml :=
  Xml.group "w:tr"
    ((if r.head then [Xml.group "w:trPr" [Xml.value "w:tblHeader" "true".toList]] else []) ++
      r.cells.map Cell.xml)

def Table.xml (t : Table) : Xml :=
  Xml.group "w:tbl"
    (Xml.group "w:tblPr"
      ([Xml.value "w:tblStyle" "TableGrid".toList, widthXml "w:tblW" "auto" 0] ++
        (if t.centered then [Alignment.center.xml] else []) ++
        [Xml.leaf "w:tblLook" [("w:firstColumn", "1"), ("w:firstRow", "1"), ("w:lastColumn", "0"),
          ("w:lastRow", "0"), ("w:noHBand", "0"), ("w:noVBand", "1"), ("w:val", "04A0")]]) ::
      Xml.group "w:tblGrid" (t.widths.map fun w => Xml.leaf "w:gridCol" [("w:w", numeral w)]) ::
      t.rows.map Row.xml)

def Element.xml : Element → Xml
  | paragraph p => p.xml
  | table t => t.xml

end Letterhead.Word
