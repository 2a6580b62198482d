import Letterhead.Document.Author
import Letterhead.Failure
import Letterhead.Page.Running
import Letterhead.Page.Sheet

/-!
Printing a document through a browser. What the browser is asked for is one value, and what comes
back is the number of pages; the finished document carries its properties.
-/

namespace Letterhead.Page

/-- The browser that prints: none, one that does not start, or one that prints a number of pages. -/
inductive Printer where
  | absent
  | broken (reason : Text)
  | ready (pages : Nat)
deriving DecidableEq, Repr

structure PrintJob where
  sheet : Text
  running : Bool
  header : Text
  footer : Text
  margins : Margins
  launchArguments : List String := ["--no-sandbox"]
  waitUntil : String := "load"
  medium : String := "print"
  paper : String := "Letter"
  background : Bool := true
deriving DecidableEq, Repr

def job (blocks : List Block) (b : Branding) (title : Text) (l : Option Logo) (now : Instant) :
    PrintJob where
  sheet := Markup.write (sheet blocks b title)
  running := b.header.enabled || b.footer.enabled
  header := Markup.write (headerMarkup b l now)
  footer := Markup.write (footerMarkup b now)
  margins := margins b

def information (title : Text) (b : Branding) (m : Metadata) : List (String × Text) :=
  [("/Title", title), ("/Author", m.authorFor b), ("/Subject", m.subjectText),
    ("/Keywords", m.keywordText), ("/Creator", generatorName ++ " (PDF)".toList)]

def reasonLimit : Nat := 500

def Printer.print : Printer → PrintJob → Except Failure Nat
  | absent, _ => .error (.rendererUnavailable "Playwright is not installed.".toList)
  | broken reason, _ =>
    .error (.rendererUnavailable ("PDF runtime unavailable: ".toList ++ reason.take reasonLimit))
  | ready pages, _ => .ok pages

end Letterhead.Page
