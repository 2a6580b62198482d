import Letterhead.Text.Basic

/-!
Spans: stretches of text that a rule recognises at their start. A text is cut at its spans from left
to right; a span never starts inside another one.
-/

namespace Letterhead

abbrev SpanRule := Text → Option (Text × Nat)

namespace Text

/-- Cuts a text at the spans of a rule, leftmost first: each span with the text before it, and the
text after the last one. The first argument is the text since the last span, latest first. -/
def cutSpans (rule : SpanRule) (before : Text) (t : Text) : List (Text × Text) × Text :=
  match t with
  | [] => ([], before.reverse)
  | c :: rest =>
    match rule (c :: rest) with
    | some (shown, n) =>
      let r := cutSpans rule [] (rest.drop (n - 1))
      ((before.reverse, shown) :: r.1, r.2)
    | none => cutSpans rule (c :: before) rest
termination_by t.length
decreasing_by all_goals simp +arith

/-- Cuts a text, changes the text between the spans, and keeps what the spans show. -/
def unwrapSpans (rule : SpanRule) (between : Text → Text) (t : Text) : Text :=
  let r := cutSpans rule [] t
  r.1.flatMap (fun p => between p.1 ++ p.2) ++ between r.2

@[simp] theorem cutSpans_nil (rule : SpanRule) (before : Text) :
    cutSpans rule before [] = ([], before.reverse) := by
  simp [cutSpans]

theorem cutSpans_of_none {rule : SpanRule} {c : Char} {rest : Text} (before : Text)
    (h : rule (c :: rest) = none) :
    cutSpans rule before (c :: rest) = cutSpans rule (c :: before) rest := by
  rw [cutSpans, h]

end Text
end Letterhead
