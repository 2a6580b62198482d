import Letterhead.Branding.Basic

/-!
The style of a printed page: rules for its elements, in which the primary colour and the families of
the text are filled in.
-/

namespace Letterhead.Page

structure StyleRule where
  selector : String
  lines : List (List (String × String))

def declarationText (d : String × String) : String := d.1 ++ ": " ++ d.2 ++ ";"

def StyleRule.text (r : StyleRule) : String :=
  r.selector ++ " \x7b " ++
    "\n  ".intercalate (r.lines.map fun l => " ".intercalate (l.map declarationText)) ++ " \x7d"

def styleRules (primary families : String) : List StyleRule := [
  ⟨"@page", [[("size", "Letter")]]⟩,
  ⟨"html, body", [[("margin", "0"), ("padding", "0")]]⟩,
  ⟨"body", [[("font-family", families), ("font-size", "12pt"), ("line-height", "1.35"),
    ("color", "#000")]]⟩,
  ⟨".doc-title",
    [[("font-size", "24pt"), ("font-weight", "bold"), ("color", primary), ("text-align", "center")],
      [("border-bottom", "2px solid " ++ primary), ("padding-bottom", "10pt"),
        ("margin", "0 0 24pt 0")]]⟩,
  ⟨"h1, h2, h3", [[("color", primary), ("font-weight", "bold"), ("margin", "12pt 0 6pt 0"),
    ("page-break-after", "avoid")]]⟩,
  ⟨"h1", [[("font-size", "20pt")]]⟩,
  ⟨"h2", [[("font-size", "16pt")]]⟩,
  ⟨"h3", [[("font-size", "14pt")]]⟩,
  ⟨"p", [[("margin", "0 0 6pt 0"), ("text-align", "justify")]]⟩,
  ⟨"ul, ol", [[("margin", "0 0 8pt 0"), ("padding-left", "20pt")]]⟩,
  ⟨"li", [[("margin-bottom", "3pt")]]⟩,
  ⟨"pre",
    [[("font-family", Font.Base.mono.stack), ("background", "#f5f5f5"), ("color", "#333333"),
        ("padding", "10pt")],
      [("margin", "6pt 0 12pt 0"), ("white-space", "pre"), ("overflow-wrap", "normal"),
        ("page-break-inside", "avoid")]]⟩,
  ⟨"pre.code", [[("font-size", "10pt"), ("white-space", "pre-wrap")]]⟩,
  ⟨"pre.diagram", [[("font-size", "9pt"), ("line-height", "1.15")]]⟩,
  ⟨"table.data", [[("border-collapse", "collapse"), ("width", "100%"), ("margin", "6pt 0 12pt 0"),
    ("font-size", "10pt")]]⟩,
  ⟨"table.data th", [[("background", primary), ("color", "#ffffff"), ("font-weight", "bold"),
    ("text-align", "left")]]⟩,
  ⟨"table.data th, table.data td", [[("border", "1px solid #cccccc"), ("padding", "4pt 6pt"),
    ("text-align", "left"), ("vertical-align", "top")]]⟩,
  ⟨"table.data thead", [[("display", "table-header-group")]]⟩]

def styleText (primary : Colour) (base : Font.Base) : Text :=
  ("\n".intercalate
    ((styleRules (String.ofList primary.text) base.stack).map StyleRule.text)).toList

end Letterhead.Page
