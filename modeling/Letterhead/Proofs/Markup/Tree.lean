import Letterhead.Proofs.Markup.Reading
import Letterhead.Proofs.Text.Cut
import Letterhead.Proofs.Text.Lines

/-! Markup read as a tree. The text is cut at its tags, and each closing tag ends the element that
was opened last. What an element is written as is read as that element, whatever follows. -/
namespace Letterhead.Markup

inductive Node where
  | text (t : Text)
  | element (words : Text) (content : List Node)
deriving Repr

inductive Token where
  | text (t : Text)
  | tag (words : Text)
deriving DecidableEq, Repr

def partTokens (part : Text) : List Token :=
  [.tag (part.cutAt '>').1, .text (unescape (part.cutAt '>').2)]

def tokens (t : Text) : List Token :=
  match t.splitOn '<' with
  | [] => []
  | before :: parts => .text (unescape before) :: parts.flatMap partTokens

/-- An element that is being read: the words of its tag, and its content, last node first. -/
structure Frame where
  words : Text
  content : List Node := []

/-- The element that is being read, and those around it from the inside out. -/
structure Reading where
  inner : Frame
  outer : List Frame := []

namespace Frame

def add (f : Frame) (ns : List Node) : Frame := { f with content := ns.reverse ++ f.content }

def addText (f : Frame) (t : Text) : Frame :=
  if t.isEmpty then f
  else
    match f.content with
    | .text u :: ns => { f with content := .text (u ++ t) :: ns }
    | ns => { f with content := .text t :: ns }

@[simp] theorem add_nil (f : Frame) : f.add [] = f := rfl

theorem add_add (f : Frame) (ns ms : List Node) : (f.add ns).add ms = f.add (ns ++ ms) := by
  simp [add]

theorem addText_addText (f : Frame) (t u : Text) :
    (f.addText t).addText u = f.addText (t ++ u) := by
  cases t with
  | nil => rfl
  | cons c t =>
    cases u with
    | nil => simp [addText]
    | cons d u =>
      -- The first text is there to be gone on with, whether it was joined to another one or not.
      obtain ⟨words, content⟩ := f
      cases content with
      | nil => rfl
      | cons n ns => cases n <;> simp [addText]

end Frame

namespace Reading

def start : Reading := { inner := { words := [] } }

def enter (s : Reading) (words : Text) : Reading := ⟨{ words := words }, s.inner :: s.outer⟩

def leave? (s : Reading) (name : Text) : Option Reading :=
  match s.outer with
  | [] => none
  | f :: fs =>
    if s.inner.words.takeWhile (· != ' ') = name then
      some ⟨f.add [.element s.inner.words s.inner.content.reverse], fs⟩
    else none

def take (s : Reading) : Token → Option Reading
  | .text t => some { s with inner := s.inner.addText t }
  | .tag ('/' :: name) => s.leave? name
  | .tag words => some (s.enter words)

def run (s : Reading) (t : Text) : Option Reading := (tokens t).foldlM take s

def nodes? (s : Reading) : Option (List Node) :=
  if s.outer.isEmpty then some s.inner.content.reverse else none

theorem tokens_of_splitOn {t before : Text} {parts : List Text}
    (h : t.splitOn '<' = before :: parts) :
    tokens t = .text (unescape before) :: parts.flatMap partTokens := by
  rw [tokens, h]

theorem run_escape_append (f : Frame) (outer : List Frame) (t rest : Text) :
    run ⟨f, outer⟩ (escape t ++ rest) = run ⟨f.addText t, outer⟩ rest := by
  obtain ⟨before, parts, hrest⟩ := List.exists_cons_of_ne_nil (List.splitOn_ne_nil '<' rest)
  have happend : (escape t ++ rest).splitOn '<' = (escape t ++ before) :: parts := by
    rw [Text.splitOn_append_of_not_mem (not_mem_escape t), hrest, List.modifyHead_cons]
  rw [run, run, tokens_of_splitOn happend, tokens_of_splitOn hrest, unescape_escape_append,
    List.foldlM_cons, List.foldlM_cons]
  simp only [take, Frame.addText_addText]

theorem take_tag_of_head? (s : Reading) {words : Text} (h : words.head? ≠ some '/') :
    s.take (.tag words) = some (s.enter words) := by
  rw [take]
  rintro name rfl
  exact h rfl

theorem run_angled_append (s : Reading) {words : Text} (hl : '<' ∉ words) (hg : '>' ∉ words)
    (rest : Text) :
    s.run (angled words ++ rest) = (s.take (.tag words)).bind fun r => r.run rest := by
  obtain ⟨before, parts, hrest⟩ := List.exists_cons_of_ne_nil (List.splitOn_ne_nil '<' rest)
  have hcut : Text.cutAt '>' (words ++ '>' :: before) = (words, before) :=
    Text.cutAt_append_stop hg
  have happend : (angled words ++ rest).splitOn '<' = [] :: (words ++ '>' :: before) :: parts := by
    have hwords : '<' ∉ words ++ ['>'] := by simp [hl]
    rw [angled, List.cons_append, List.splitOn_cons_eq_if_modifyHead, if_pos (by simp),
      Text.splitOn_append_of_not_mem hwords, hrest, List.modifyHead_cons, List.append_assoc]
    rfl
  have htokens : tokens (angled words ++ rest) = .text [] :: .tag words :: tokens rest := by
    rw [tokens_of_splitOn happend, tokens_of_splitOn hrest]
    simp [partTokens, hcut, unescape]
  have hnone : s.take (.text []) = some s := rfl
  rw [run, htokens, List.foldlM_cons, hnone, Option.bind_eq_bind, Option.bind_some,
    List.foldlM_cons]
  rfl

end Reading

def read? (t : Text) : Option (List Node) := (Reading.start.run t).bind Reading.nodes?

def wordsOf (tag : String) (attributes : List (String × Text)) : Text :=
  tag.toList ++ attributes.flatMap writeAttribute

/-- The words of a tag hold no angles and start with its name, and the tag closes nothing. -/
structure IsTag (tag : String) (attributes : List (String × Text)) : Prop where
  left : '<' ∉ wordsOf tag attributes
  right : '>' ∉ wordsOf tag attributes
  name : (wordsOf tag attributes).takeWhile (· != ' ') = tag.toList
  opens : (wordsOf tag attributes).head? ≠ some '/'

/-- Read behind other markup, the markup adds nodes. -/
def Adds (m : Markup) (ns : List Node) : Prop :=
  ∀ (f : Frame) (outer : List Frame) (rest : Text),
    Reading.run ⟨f, outer⟩ (write m ++ rest) = Reading.run ⟨f.add ns, outer⟩ rest

/-- Read from the start of an element, the markup is its content. -/
def Fills (m : Markup) (ns : List Node) : Prop :=
  ∀ (words : Text) (outer : List Frame) (rest : Text),
    Reading.run ⟨{ words := words }, outer⟩ (write m ++ rest) =
      Reading.run ⟨Frame.add { words := words } ns, outer⟩ rest

theorem Adds.fills {m : Markup} {ns : List Node} (h : Adds m ns) : Fills m ns :=
  fun _ outer rest => h _ outer rest

theorem adds_nil : Adds [] [] := fun _ _ _ => rfl

theorem Adds.append {m n : Markup} {ns ms : List Node} (hm : Adds m ns) (hn : Adds n ms) :
    Adds (m ++ n) (ns ++ ms) := by
  intro f outer rest
  rw [write_append, List.append_assoc, hm, hn, Frame.add_add]

theorem adds_flatMap {α : Type} {f : α → Markup} {g : α → Node} {xs : List α}
    (h : ∀ x ∈ xs, Adds (f x) [g x]) : Adds (xs.flatMap f) (xs.map g) := by
  induction xs with
  | nil => exact adds_nil
  | cons x xs ih =>
    exact (h x (by simp)).append (ih fun y hy => h y (List.mem_cons_of_mem x hy))

def textNodes (t : Text) : List Node := if t.isEmpty then [] else [.text t]

theorem fills_text (t : Text) : Fills [.text t] (textNodes t) := by
  intro words outer rest
  have hadd : Frame.addText { words := words } t = Frame.add { words := words } (textNodes t) := by
    cases t <;> rfl
  have hwrite : write [.text t] = escape t := by simp [write, writePiece]
  rw [hwrite, Reading.run_escape_append, hadd]

/-- An element is read as its tag and its content. -/
theorem Fills.adds_element {tag : String} {attributes : List (String × Text)} {m : Markup}
    {ns : List Node} (htag : IsTag tag attributes) (h : Fills m ns) :
    Adds (element tag attributes m) [.element (wordsOf tag attributes) ns] := by
  intro f outer rest
  have hwrite : write (element tag attributes m) =
      angled (wordsOf tag attributes) ++ (write m ++ angled ('/' :: tag.toList)) := by
    simp [element, write, writePiece, angled, wordsOf]
  have hname : ∀ c ∈ tag.toList, c ∈ wordsOf tag attributes := fun c hc =>
    List.mem_append_left _ hc
  have hl : '<' ∉ '/' :: tag.toList := by simpa using fun h => htag.left (hname _ h)
  have hg : '>' ∉ '/' :: tag.toList := by simpa using fun h => htag.right (hname _ h)
  calc
    Reading.run ⟨f, outer⟩ (write (element tag attributes m) ++ rest)
      = Reading.run ⟨{ words := wordsOf tag attributes }, f :: outer⟩
          (write m ++ (angled ('/' :: tag.toList) ++ rest)) := by
        rw [hwrite, List.append_assoc, Reading.run_angled_append _ htag.left htag.right,
          Reading.take_tag_of_head? _ htag.opens, Option.bind_some, Reading.enter,
          List.append_assoc]
    _ = Reading.run ⟨Frame.add { words := wordsOf tag attributes } ns, f :: outer⟩
          (angled ('/' :: tag.toList) ++ rest) := h ..
    _ = Reading.run ⟨f.add [.element (wordsOf tag attributes) ns], outer⟩ rest := by
        rw [Reading.run_angled_append _ hl hg]
        simp [Reading.take, Reading.leave?, htag.name, Frame.add]

/-- Markup that fills an element is read as the nodes of it. -/
theorem Fills.read?_write {m : Markup} {ns : List Node} (h : Fills m ns) :
    read? (write m) = some ns := by
  have hrun := h [] [] []
  rw [List.append_nil] at hrun
  rw [read?, Reading.start, hrun]
  simp [Reading.run, tokens, Reading.take, Reading.nodes?, Frame.add, Frame.addText, unescape]

end Letterhead.Markup
