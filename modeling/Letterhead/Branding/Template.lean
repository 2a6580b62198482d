import Letterhead.Calendar.Instant
import Letterhead.Text.Letter
import Letterhead.Text.Named
import Letterhead.Text.Span

/-!
Templates: text with names in double braces. Each name stands for a value whatever its case; names
are replaced one after the other, so a value may hold a name that comes later.
-/

namespace Letterhead.Template

def opening : Text := ['\x7b', '\x7b']

def closing : Text := ['\x7d', '\x7d']

def placeholder (name : Text) : SpanRule := fun t =>
  let mark := opening ++ name ++ closing
  (Text.afterIgnoringCase? mark t).map fun _ => (name, mark.length)

def replaceName (name value t : Text) : Text :=
  let r := Text.cutSpans (placeholder name) [] t
  r.1.flatMap (fun p => p.1 ++ value) ++ r.2

def clockValues (now : Instant) : Named Text :=
  [("date".toList, now.date.long), ("year".toList, intText now.date.year)]

/-- Fills a template; values of the caller go before the date and the year. -/
def fill (now : Instant) (values : Named Text) (t : Text) : Text :=
  (Named.setAll values (clockValues now)).foldl (fun t f => replaceName f.1 f.2 t) t

end Letterhead.Template
