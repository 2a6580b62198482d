import Letterhead.Content.Block
import Letterhead.Content.Inline
import Letterhead.Markup.Piece

/-!
Content blocks on a printed page. A block becomes an element of its own; text in bold stands in an
inner element.
-/

namespace Letterhead.Page

open Markup

def runMarkup (r : Run) : Markup :=
  if r.bold then element "strong" [] [.text r.text] else [.text r.text]

def inlineMarkup (t : Text) : Markup := (Inline.runs t).flatMap runMarkup

def headingTag (level : Nat) : String := "h" ++ String.ofList (Nat.toDigits 10 level)

def entries (tag : String) (ts : List Text) : Markup :=
  ts.flatMap fun t => element tag [] (inlineMarkup t)

def verbatim (kind : String) (t : Text) : Markup :=
  element "pre" [("class", kind.toList)] [.text t]

def tableMarkup (head : List Text) (body : List (List Text)) : Markup :=
  element "table" [("class", "data".toList)]
    (element "thead" [] (element "tr" [] (entries "th" head)) ++
      element "tbody" [] (body.flatMap fun row => element "tr" [] (entries "td" row)))

def blockMarkup : Block → Markup
  | .heading level t => element (headingTag (Block.clampLevel level)) [] [.text (Inline.shown t)]
  | .paragraph ls => entries "p" ls
  | .bullets items => element "ul" [] (entries "li" items)
  | .numbered items => element "ol" [] (entries "li" items)
  | .code t => verbatim "code" t
  | .diagram ls => verbatim "diagram" (['\n'].intercalate ls)
  | .table [] => []
  | .table (head :: body) => tableMarkup head body

end Letterhead.Page
