import Letterhead.Proofs.Content.Inline
import Letterhead.Proofs.Content.WellFormed
import Letterhead.Proofs.Document.Entry
import Letterhead.Proofs.Markup.Tree
import Letterhead.Proofs.Page.Sheet

/-! Entries of a printed page. The markup of a block, read as a tree, holds the entries of the block
with their runs, lines and cells. -/
namespace Letterhead.Page
open Markup

/-! Reading -/

def content? (tag : String) : Node → Option (List Node)
  | .element words ns => if words = tag.toList then some ns else none
  | .text _ => none

def text? : List Node → Option Text
  | [] => some []
  | [.text t] => some t
  | _ => none

def run? : Node → Option Run
  | .text t => some ⟨t, false⟩
  | n => ((content? "strong" n).bind text?).map fun t => ⟨t, true⟩

def cells? (tag : String) (ns : List Node) : Option (List (List Run)) :=
  ns.mapM fun n => (content? tag n).bind fun ms => ms.mapM run?

def rows? (part tag : String) (n : Node) : Option (List (List (List Run))) :=
  (content? part n).bind fun ns => ns.mapM fun row => (content? "tr" row).bind (cells? tag)

def table? : List Node → Option (List Entry)
  | [head, body] =>
    match rows? "thead" "th" head, rows? "tbody" "td" body with
    | some [row], some rows => some [.table row rows]
    | _, _ => none
  | _ => none

def readers : List (Text × (List Node → Option (List Entry))) :=
  ([1, 2, 3].map fun level =>
    ((headingTag level).toList, fun ns => (text? ns).map fun t => [.heading level t])) ++
  [("p".toList, fun ns => (ns.mapM run?).map fun rs => [.line rs]),
    ("ul".toList, fun ns => (cells? "li" ns).map fun items => items.map .bullet),
    ("ol".toList, fun ns => (cells? "li" ns).map fun items => items.map .numbered),
    (wordsOf "pre" [("class", "code".toList)],
      fun ns => (text? ns).map fun t => [.code (t.splitOn '\n')]),
    (wordsOf "pre" [("class", "diagram".toList)],
      fun ns => (text? ns).map fun t => [.diagram (t.splitOn '\n')]),
    (wordsOf "table" [("class", "data".toList)], table?)]

def entriesOf? : Node → Option (List Entry)
  | .element words ns => (readers.lookup words).bind fun read => read ns
  | .text _ => none

/-- The entries of written markup. Text counts as it is written, with every break in it. -/
def entries? (t : Text) : Option (List Entry) :=
  (read? t).bind fun ns => (ns.mapM entriesOf?).map List.flatten

/-! Blocks as trees -/

theorem isTag_of_mem_elements {e : String × List (String × Text)} (h : e ∈ elements) :
    IsTag e.1 e.2 := by
  have hall : ∀ e ∈ elements, '<' ∉ wordsOf e.1 e.2 ∧ '>' ∉ wordsOf e.1 e.2 ∧
      (wordsOf e.1 e.2).takeWhile (· != ' ') = e.1.toList ∧
        (wordsOf e.1 e.2).head? ≠ some '/' := by
    decide +kernel
  obtain ⟨hl, hg, hname, hopens⟩ := hall e h
  exact ⟨hl, hg, hname, hopens⟩

def runNode (r : Run) : Node :=
  if r.bold then .element (wordsOf "strong" []) [.text r.text] else .text r.text

def inlineNodes (t : Text) : List Node := (Inline.runs t).map runNode

def entryNodes (tag : String) (ts : List Text) : List Node :=
  ts.map fun t => .element (wordsOf tag []) (inlineNodes t)

def rowNode (tag : String) (ts : List Text) : Node := .element (wordsOf "tr" []) (entryNodes tag ts)

def nodes : Block → List Node
  | .heading level t =>
    [.element (wordsOf (headingTag (Block.clampLevel level)) []) (textNodes (Inline.shown t))]
  | .paragraph ls => entryNodes "p" ls
  | .bullets ts => [.element (wordsOf "ul" []) (entryNodes "li" ts)]
  | .numbered ts => [.element (wordsOf "ol" []) (entryNodes "li" ts)]
  | .code t => [.element (wordsOf "pre" [("class", "code".toList)]) (textNodes t)]
  | .diagram ls =>
    [.element (wordsOf "pre" [("class", "diagram".toList)]) (textNodes (Text.unlines ls))]
  | .table [] => []
  | .table (head :: body) =>
    [.element (wordsOf "table" [("class", "data".toList)])
      [.element (wordsOf "thead" []) [rowNode "th" head],
        .element (wordsOf "tbody" []) (body.map (rowNode "td"))]]

/-- If a frame ends with text, the runs that follow start in bold. -/
def Precedes (f : Frame) (rs : List Run) : Prop :=
  ∀ u ns, f.content = .text u :: ns → ∀ r ∈ rs.head?, r.bold = true

theorem textNodes_of_ne_nil {t : Text} (h : t ≠ []) : textNodes t = [.text t] := by
  simp [textNodes, h]

theorem adds_element {tag : String} {attributes : List (String × Text)} {m : Markup}
    {ns : List Node} (he : (tag, attributes) ∈ elements) (h : Fills m ns) :
    Adds (element tag attributes m) [.element (wordsOf tag attributes) ns] :=
  h.adds_element (isTag_of_mem_elements he)

/-- A run that is not joined to text before it is read as its node. -/
theorem run_runMarkup {r : Run} (hr : r.text ≠ []) {f : Frame}
    (hf : ∀ u ns, f.content = .text u :: ns → r.bold = true) (outer : List Frame) (rest : Text) :
    Reading.run ⟨f, outer⟩ (write (runMarkup r) ++ rest) =
      Reading.run ⟨f.add [runNode r], outer⟩ rest := by
  cases hbold : r.bold with
  | true =>
    have hmarkup : runMarkup r = element "strong" [] [.text r.text] := if_pos hbold
    have hnode : runNode r = .element (wordsOf "strong" []) (textNodes r.text) := by
      rw [runNode, if_pos hbold, textNodes_of_ne_nil hr]
    rw [hmarkup, hnode]
    exact adds_element (by simp [elements]) (fills_text r.text) f outer rest
  | false =>
    have hwrite : write (runMarkup r) = escape r.text := by
      simp [runMarkup, hbold, write, writePiece]
    have hadd : f.addText r.text = f.add [runNode r] := by
      obtain ⟨words, content⟩ := f
      rcases content with _ | ⟨_ | _, ns⟩
      · simp [Frame.addText, Frame.add, runNode, hr, hbold]
      · exact absurd (hf _ ns rfl) (by simp [hbold])
      · simp [Frame.addText, Frame.add, runNode, hr, hbold]
    rw [hwrite, Reading.run_escape_append, hadd]

/-- Runs that alternate are read one by one: text is never joined to text before it. -/
theorem run_runsMarkup {rs : List Run} (halt : Inline.Alternates rs)
    (hne : ∀ r ∈ rs, r.text ≠ []) {f : Frame} (hf : Precedes f rs) (outer : List Frame)
    (rest : Text) :
    Reading.run ⟨f, outer⟩ (write (rs.flatMap runMarkup) ++ rest) =
      Reading.run ⟨f.add (rs.map runNode), outer⟩ rest := by
  -- The frame is general: each run is read behind those before it.
  induction rs generalizing f with
  | nil => rfl
  | cons r rs ih =>
    obtain ⟨hr, hrs⟩ := List.forall_mem_cons.1 hne
    obtain ⟨hnext, halt⟩ := List.isChain_cons.1 halt
    have hfirst : ∀ u ns, f.content = .text u :: ns → r.bold = true := fun u ns h =>
      hf u ns h r rfl
    have hprecedes : Precedes (f.add [runNode r]) rs := by
      -- The frame ends with text only behind a plain run, and after that comes a bold one.
      intro u ns h q hq
      have hplain : r.bold = false := by
        by_contra hbold
        have hnode : runNode r = .element (wordsOf "strong" []) [.text r.text] :=
          if_pos (by simpa using hbold)
        rw [hnode] at h
        cases h
      exact (hnext q hq).resolve_left (by simp [hplain])
    rw [List.flatMap_cons, write_append, List.append_assoc, run_runMarkup hr hfirst,
      ih halt hrs hprecedes, Frame.add_add]
    rfl

theorem fills_inlineMarkup (t : Text) : Fills (inlineMarkup t) (inlineNodes t) := by
  intro words outer rest
  exact run_runsMarkup (Inline.alternates_runs t) (fun r hr => (Inline.of_mem_runs hr).1)
    (by intro u ns h; cases h) outer rest

theorem adds_entries {tag : String} (htag : (tag, []) ∈ elements) (ts : List Text) :
    Adds (entries tag ts) (entryNodes tag ts) :=
  adds_flatMap fun t _ => adds_element htag (fills_inlineMarkup t)

/-- The markup of a block is read as its nodes. -/
theorem adds_blockMarkup (b : Block) : Adds (blockMarkup b) (nodes b) := by
  cases b with
  | heading level t => exact adds_element (headingTag_mem_elements level) (fills_text _)
  | paragraph ls => exact adds_entries (by simp [elements]) ls
  | bullets ts =>
    exact adds_element (by simp [elements]) (adds_entries (by simp [elements]) ts).fills
  | numbered ts =>
    exact adds_element (by simp [elements]) (adds_entries (by simp [elements]) ts).fills
  | code t => exact adds_element (by simp [elements]) (fills_text t)
  | diagram ls => exact adds_element (by simp [elements]) (fills_text _)
  | table rows =>
    cases rows with
    | nil => exact adds_nil
    | cons head body =>
      have hrow : ∀ tag ts, (tag, []) ∈ elements →
          Adds (element "tr" [] (entries tag ts)) [rowNode tag ts] :=
        fun tag ts htag => adds_element (by simp [elements]) (adds_entries htag ts).fills
      have hhead := hrow "th" head (by simp [elements])
      have hbody := adds_flatMap fun row (_ : row ∈ body) => hrow "td" row (by simp [elements])
      exact adds_element (by simp [elements])
        ((adds_element (by simp [elements]) hhead.fills).append
          (adds_element (by simp [elements]) hbody.fills)).fills

/-! Trees as entries -/

theorem content?_element (tag : String) (ns : List Node) :
    content? tag (.element (wordsOf tag []) ns) = some ns := by
  simp [content?, wordsOf]

theorem text?_textNodes (t : Text) : text? (textNodes t) = some t := by
  cases t <;> rfl

theorem run?_runNode (r : Run) : run? (runNode r) = some r := by
  obtain ⟨t, bold⟩ := r
  cases bold <;> rfl

theorem mapM_run?_inlineNodes (t : Text) : (inlineNodes t).mapM run? = some (Inline.runs t) :=
  (mapM_map (h := id) (fun r _ => run?_runNode r)).trans (by rw [List.map_id])

theorem cells?_entryNodes (tag : String) (ts : List Text) :
    cells? tag (entryNodes tag ts) = some (ts.map Inline.runs) :=
  mapM_map fun t _ => by rw [content?_element, Option.bind_some, mapM_run?_inlineNodes]

theorem rows?_rowNodes (part tag : String) (rows : List (List Text)) :
    rows? part tag (.element (wordsOf part []) (rows.map (rowNode tag))) =
      some (rows.map fun ts => ts.map Inline.runs) := by
  rw [rows?, content?_element, Option.bind_some]
  exact mapM_map fun ts _ => by
    rw [rowNode, content?_element, Option.bind_some, cells?_entryNodes]

theorem entriesOf?_element {words : Text} {read : List Node → Option (List Entry)}
    (hread : readers.lookup words = some read) {ns : List Node} {es : List Entry}
    (hes : read ns = some es) : entriesOf? (.element words ns) = some es := by
  rw [entriesOf?, hread, Option.bind_some, hes]

theorem flatten_mapM_singleton {n : Node} {es : List Entry} (h : entriesOf? n = some es) :
    ([n].mapM entriesOf?).map List.flatten = some es := by
  simp [h]

/-- The nodes of a block hold its entries. -/
theorem entriesOf?_nodes {b : Block} (hb : b.WellFormed) :
    ((nodes b).mapM entriesOf?).map List.flatten = some (Entry.ofBlock b) := by
  cases b with
  | heading level t =>
    have hread : ∀ k, 1 ≤ k ∧ k ≤ 3 → readers.lookup (wordsOf (headingTag k) []) =
        some fun ns => (text? ns).map fun t => [.heading k t] := by
      intro k hk
      obtain rfl | rfl | rfl : k = 1 ∨ k = 2 ∨ k = 3 := by omega
      all_goals rfl
    refine flatten_mapM_singleton
      (entriesOf?_element (hread _ (Block.clampLevel_mem level)) ?_)
    rw [text?_textNodes]
    rfl
  | paragraph ls =>
    have hline : ∀ t, entriesOf? (.element (wordsOf "p" []) (inlineNodes t)) =
        some [.line (Inline.runs t)] :=
      fun t => entriesOf?_element rfl (by rw [mapM_run?_inlineNodes]; rfl)
    rw [nodes, entryNodes, mapM_map fun t _ => hline t, Option.map_some, flatten_map_singleton,
      Entry.ofBlock]
  | bullets ts =>
    refine flatten_mapM_singleton (entriesOf?_element rfl ?_)
    rw [cells?_entryNodes, Option.map_some, List.map_map]
    rfl
  | numbered ts =>
    refine flatten_mapM_singleton (entriesOf?_element rfl ?_)
    rw [cells?_entryNodes, Option.map_some, List.map_map]
    rfl
  | code t => exact flatten_mapM_singleton (entriesOf?_element rfl (by rw [text?_textNodes]; rfl))
  | diagram ls =>
    have hsplit : (Text.unlines ls).splitOn '\n' = ls :=
      List.splitOn_intercalate _ (fun l hl => (hb.isLine_of_mem_diagram hl).1) hb.diagram_ne_nil
    refine flatten_mapM_singleton (entriesOf?_element rfl ?_)
    rw [text?_textNodes, Option.map_some, hsplit]
    rfl
  | table rows =>
    cases rows with
    | nil => rfl
    | cons head body =>
      refine flatten_mapM_singleton (entriesOf?_element rfl ?_)
      have hhead := rows?_rowNodes "thead" "th" [head]
      rw [List.map_singleton, List.map_singleton] at hhead
      rw [table?, hhead, rows?_rowNodes]
      rfl

/-- The written markup of a block holds its entries. -/
theorem entries?_write {b : Block} (hb : b.WellFormed) :
    entries? (write (blockMarkup b)) = some (Entry.ofBlock b) := by
  rw [entries?, (adds_blockMarkup b).fills.read?_write, Option.bind_some, entriesOf?_nodes hb]

end Letterhead.Page
