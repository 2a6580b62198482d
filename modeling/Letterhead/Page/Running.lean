import Letterhead.Branding.Template
import Letterhead.Logo.Basic
import Letterhead.Markup.Piece
import Letterhead.Page.Style

/-!
The running header and footer of a printed document, and the margins that leave room for them. Their
text is escaped first and filled in then, so that page numbers can be put in as elements.
-/

namespace Letterhead.Page

open Markup

def marginPoints : Nat := 72

def headerPoints : Nat := 50

def footerPoints : Nat := 40

def counter (name : String) : Markup := element "span" [("class", name.toList)] []

def pageCounter : Markup := counter "pageNumber"

def totalCounter : Markup := counter "totalPages"

def styleAttribute (ds : List (String × Text)) : String × Text :=
  ("style", ds.flatMap fun d => d.1.toList ++ ':' :: d.2 ++ [';'])

/-- What stands for a header or a footer that is not enabled. -/
def noRunning : Markup := element "span" [] []

def headerText (b : Branding) (now : Instant) : Text :=
  let organization := escape b.organization
  let t := Template.fill now
    [("organization".toList, organization), ("page".toList, write pageCounter)]
    (escape b.header.content)
  if t.isEmpty then organization else t

def logoMarkup (l : Logo) : Markup :=
  [.void "img" [("src", l.address),
    styleAttribute [("width", intText l.width ++ "px".toList),
      ("height", intText l.height ++ "px".toList), ("margin-right", "14pt".toList),
      ("vertical-align", "middle".toList)]]]

def shownLogo (b : Branding) (l : Option Logo) : Option Logo := if b.enabled then l else none

def runningStyle (b : Branding) (side size colour : String) : List (String × Text) :=
  [("width", "100%".toList), ("margin", "0 ".toList ++ natText marginPoints ++ "pt".toList),
    ("padding-" ++ side, "4pt".toList), ("border-" ++ side, "1px solid ".toList ++ b.primary.text),
    ("font-family", (Font.base b.font).stack.toList), ("font-size", size.toList)] ++
  (if colour.isEmpty then
    [("font-weight", "bold".toList), ("color", b.primary.text)]
  else [("color", colour.toList)])

def printColours : String × Text := ("-webkit-print-color-adjust", "exact".toList)

def headerMarkup (b : Branding) (l : Option Logo) (now : Instant) : Markup :=
  if b.header.enabled then
    let logo := shownLogo b l
    let align := if logo.isSome then "left" else "center"
    element "div"
      [styleAttribute (runningStyle b "bottom" "10pt" "" ++
        [("text-align", align.toList), printColours])]
      ((logo.map logoMarkup).getD [] ++
        element "span" [styleAttribute [("vertical-align", "middle".toList)]]
          [.literal (headerText b now)])
  else noRunning

def footerText (b : Branding) (now : Instant) : Text :=
  Template.fill now
    [("organization".toList, escape b.organization), ("page".toList, write pageCounter),
      ("total".toList, write totalCounter)]
    (escape b.footer.content)

def pageLine : Markup :=
  element "div" [styleAttribute [("text-align", "right".toList)]]
    ([.text "Page ".toList] ++ pageCounter ++ [.text " of ".toList] ++ totalCounter)

def footerMarkup (b : Branding) (now : Instant) : Markup :=
  if b.footer.enabled then
    let t := footerText b now
    element "div" [styleAttribute (runningStyle b "top" "9pt" "#666666" ++ [printColours])]
      ((if t.isEmpty then [] else
        element "div" [styleAttribute [("text-align", "center".toList)]] [.literal t]) ++
        if b.footer.pageNumber then pageLine else [])
  else noRunning

structure Margins where
  top : Nat
  bottom : Nat
  left : Nat
  right : Nat
deriving DecidableEq, Repr

def margins (b : Branding) : Margins where
  top := marginPoints + if b.header.enabled then headerPoints else 0
  bottom := marginPoints + if b.footer.enabled then footerPoints else 0
  left := marginPoints
  right := marginPoints

end Letterhead.Page
