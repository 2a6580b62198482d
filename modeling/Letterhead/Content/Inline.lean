import Letterhead.Text.Span

/-!
Inline text. Bold spans become runs of their own; stars around other spans, code marks and the
addresses of links are dropped, and the text inside code marks is left as it is.
-/

namespace Letterhead

structure Run where
  text : Text
  bold : Bool
deriving DecidableEq, Repr

namespace Inline

def delimited (opening closing : Text) (stop : Char) : SpanRule := fun t =>
  match Text.after? opening t with
  | none => none
  | some rest =>
    let body := rest.takeWhile (· != stop)
    if !body.isEmpty && Text.startsWith (rest.drop body.length) closing then
      some (body, opening.length + body.length + closing.length)
    else none

def bold : SpanRule := delimited ['*', '*'] ['*', '*'] '*'

def emphasis : SpanRule := delimited ['*'] ['*'] '*'

def code : SpanRule := delimited ['\x60'] ['\x60'] '\x60'

def link : SpanRule := fun t =>
  match delimited ['['] [']', '('] ']' t with
  | none => none
  | some (label, n) =>
    let address := (t.drop n).takeWhile (· != ')')
    if !address.isEmpty && (t.drop (n + address.length)).head? == some ')' then
      some (label, n + address.length + 1)
    else none

/-- Drops emphasis marks, then the addresses of links. -/
def cleanMarkup (t : Text) : Text := Text.unwrapSpans link id (Text.unwrapSpans emphasis id t)

def clean (t : Text) : Text := Text.unwrapSpans code cleanMarkup t

/-- The plain run of a text between bold spans, unless nothing of it is shown. -/
def plainRun (t : Text) : List Run := if (clean t).isEmpty then [] else [⟨clean t, false⟩]

def runs (t : Text) : List Run :=
  let r := Text.cutSpans bold [] t
  r.1.flatMap (fun p => plainRun p.1 ++ [⟨p.2, true⟩]) ++ plainRun r.2

def shown (t : Text) : Text := (runs t).flatMap Run.text

@[simp] theorem runs_nil : runs [] = [] := by
  simp [runs, plainRun, clean, Text.unwrapSpans, cleanMarkup]

end Inline
end Letterhead
