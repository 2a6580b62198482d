import Letterhead.Page.Body
import Letterhead.Page.Style

/-!
The whole of a printed document: head, style, title, and the blocks one line each.
-/

namespace Letterhead.Page

open Markup

def gap (spaces : Nat) : Piece := .literal ('\n' :: List.replicate spaces ' ')

def bodyMarkup (blocks : List Block) : Markup :=
  [gap 0].intercalate (blocks.map blockMarkup)

def sheet (blocks : List Block) (b : Branding) (title : Text) : Markup :=
  [.literal "<!doctype html>".toList, gap 0, .opening "html" [("lang", "en".toList)], gap 0,
    .opening "head" [], gap 2, .void "meta" [("charset", "utf-8".toList)], gap 2] ++
  element "title" [] [.text title] ++ [gap 2] ++
  element "style" [] [.literal (styleText b.primary (Font.base b.font))] ++
  [gap 0, .closing "head", gap 0, .opening "body" [], gap 2] ++
  element "div" [("class", "doc-title".toList)] [.text title] ++ [gap 2] ++
  bodyMarkup blocks ++ [gap 0, .closing "body", gap 0, .closing "html"]

end Letterhead.Page
