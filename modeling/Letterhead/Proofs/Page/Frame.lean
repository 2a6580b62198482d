import Letterhead.Page.Running
import Letterhead.Proofs.Branding.Colour
import Letterhead.Proofs.Markup.Woven
import Letterhead.Proofs.Page.Sheet

/-! Frames of running headers and footers. Colours, families, sizes and the picture of a logo are
written without marks, so that a frame has its own tags and those of what is written in it. -/
namespace Letterhead

def Piece.IsRunning : Piece → Prop
  | opening tag _ | closing tag | void tag _ => tag ∈ ["div", "img", "span"]
  | text _ | literal _ => True

namespace Base64
open Markup

theorem char_not_mem_marks (n : Nat) : char n ∉ marks := by
  unfold char
  cases hc : alphabet[n]? with
  | none => decide
  | some c =>
    have hmem := Array.mem_of_getElem? hc
    unfold alphabet at hmem
    exact isBare_ofList (by decide) c (List.mem_toArray.1 hmem)

theorem isBare_encode (b : ByteArray) : IsBare (encode b) := by
  unfold encode
  refine isBare_flatMap fun i _ => ?_
  generalize ((List.range 3).filterMap fun k => (b[3 * i + k]?).map UInt8.toNat) = ns
  have hpad : '=' ∉ marks := by decide
  have hnil : IsBare [] := by decide
  fun_cases encodeGroup ns with
  | case1 => exact hnil
  | _ => simp only [isBare_cons, char_not_mem_marks, hpad, hnil, not_false_eq_true, and_self]

end Base64

namespace Page
open Markup

theorem isBare_colour (c : Colour) : IsBare c.text := by
  have hdigits : IsBare Colour.hexDigits := isBare_ofList (by decide)
  obtain ⟨ds, htext, -, hds⟩ := c.exists_text_eq
  rw [htext, isBare_cons]
  exact ⟨by decide, fun d hd => hdigits d (hds hd)⟩

theorem isBare_stack (f : Font.Base) : IsBare f.stack.toList := by
  cases f <;> exact isBare_ofList (by decide)

def AreBare (as : List (String × Text)) : Prop := ∀ a ∈ as, IsBare a.1.toList ∧ IsBare a.2

theorem areBare_nil : AreBare [] := by simp [AreBare]

theorem areBare_cons {name : String} {value : Text} {as : List (String × Text)} :
    AreBare ((name, value) :: as) ↔ (IsBare name.toList ∧ IsBare value) ∧ AreBare as :=
  List.forall_mem_cons

theorem areBare_literal {name value : Text} {as : List (String × Text)}
    (h : IsBare name ∧ IsBare value) (has : AreBare as) :
    AreBare ((String.ofList name, (String.ofList value).toList) :: as) :=
  areBare_cons.2 ⟨⟨isBare_ofList h.1, isBare_ofList h.2⟩, has⟩

theorem areBare_append {as bs : List (String × Text)} :
    AreBare (as ++ bs) ↔ AreBare as ∧ AreBare bs :=
  List.forall_mem_append

theorem isBare_styleAttribute {ds : List (String × Text)} (h : AreBare ds) :
    IsBare (styleAttribute ds).2 := by
  refine isBare_flatMap fun d hd => ?_
  obtain ⟨hname, hvalue⟩ := h d hd
  simp only [isBare_append, isBare_cons]
  exact ⟨⟨hname, by decide, hvalue⟩, by decide⟩

theorem areBare_styleAttribute {ds : List (String × Text)} (h : AreBare ds) :
    AreBare [styleAttribute ds] := by
  have hall : AreBare [("style", (styleAttribute ds).2)] :=
    areBare_cons.2 ⟨⟨isBare_ofList (by decide), isBare_styleAttribute h⟩, areBare_nil⟩
  exact hall

/-- A picture is of one of the two kinds that a logo can have. -/
def IsPicture (l : Logo) : Prop := l.kind = "png".toList ∨ l.kind = "jpeg".toList

theorem isBare_address {l : Logo} (h : IsPicture l) :
    IsBare l.address := by
  have hkind : IsBare l.kind := by
    cases h with
    | inl h => exact h ▸ isBare_ofList (by decide)
    | inr h => exact h ▸ isBare_ofList (by decide)
  have hstart : IsBare "data:image/".toList := isBare_ofList (by decide)
  have hcoding : IsBare ";base64,".toList := isBare_ofList (by decide)
  have hbytes := Base64.isBare_encode l.bytes
  exact isBare_append.2 ⟨isBare_append.2 ⟨isBare_append.2 ⟨hstart, hkind⟩, hcoding⟩, hbytes⟩

theorem hasTags_logoMarkup {l : Logo} (h : IsPicture l) :
    HasTags (logoMarkup l) (write (logoMarkup l)) := by
  have hpixels : ∀ n, IsBare (intText n ++ "px".toList) := fun n =>
    isBare_append.2 ⟨isBare_intText n, isBare_ofList (by decide)⟩
  have hrest : AreBare [("margin-right", "14pt".toList), ("vertical-align", "middle".toList)] :=
    areBare_literal (by decide) (areBare_literal (by decide) areBare_nil)
  have hstyle : AreBare [("width", intText l.width ++ "px".toList),
      ("height", intText l.height ++ "px".toList), ("margin-right", "14pt".toList),
      ("vertical-align", "middle".toList)] :=
    areBare_cons.2 ⟨⟨isBare_ofList (by decide), hpixels _⟩,
      areBare_cons.2 ⟨⟨isBare_ofList (by decide), hpixels _⟩, hrest⟩⟩
  have hsource : IsBare "src".toList ∧ IsBare l.address :=
    ⟨isBare_ofList (by decide), isBare_address h⟩
  exact HasTags.tag rfl
    ⟨isBare_ofList (by decide), areBare_cons.2 ⟨hsource, areBare_styleAttribute hstyle⟩⟩

theorem areBare_runningStyle (b : Branding) (side size colour : String)
    (hside : IsBare side.toList) (hsize : IsBare size.toList) (hcolour : IsBare colour.toList) :
    AreBare (runningStyle b side size colour) := by
  have hname : ∀ {start : String}, IsBare start.toList → IsBare (start ++ side).toList := by
    intro start hstart
    rw [String.toList_append]
    exact isBare_append.2 ⟨hstart, hside⟩
  have hmargin : IsBare ("0 ".toList ++ natText marginPoints ++ "pt".toList) :=
    isBare_append.2 ⟨isBare_append.2 ⟨isBare_ofList (by decide), by decide⟩,
      isBare_ofList (by decide)⟩
  have hborder : IsBare ("1px solid ".toList ++ b.primary.text) :=
    isBare_append.2 ⟨isBare_ofList (by decide), isBare_colour b.primary⟩
  unfold runningStyle
  refine areBare_append.2 ⟨?_, ?_⟩
  · refine areBare_literal (by decide) ?_
    simp only [areBare_cons, hmargin, hborder, hsize, isBare_stack, areBare_nil, and_true]
    exact ⟨isBare_ofList (by decide), ⟨hname (isBare_ofList (by decide)), isBare_ofList (by decide)⟩,
      hname (isBare_ofList (by decide)), isBare_ofList (by decide), isBare_ofList (by decide)⟩
  · split
    · exact areBare_literal (by decide)
        (areBare_cons.2 ⟨⟨isBare_ofList (by decide), isBare_colour b.primary⟩, areBare_nil⟩)
    · exact areBare_cons.2 ⟨⟨isBare_ofList (by decide), hcolour⟩, areBare_nil⟩

theorem isBare_div : IsBare "div".toList := isBare_ofList (by decide)

theorem isBare_span : IsBare "span".toList := isBare_ofList (by decide)

theorem areBare_printColours : AreBare [printColours] := areBare_literal (by decide) areBare_nil

def headerFrame (b : Branding) (l : Option Logo) (inner : Markup) : Markup :=
  if b.header.enabled then
    let logo := shownLogo b l
    let align := if logo.isSome then "left" else "center"
    element "div"
      [styleAttribute (runningStyle b "bottom" "10pt" "" ++
        [("text-align", align.toList), printColours])]
      ((logo.map logoMarkup).getD [] ++
        element "span" [styleAttribute [("vertical-align", "middle".toList)]] inner)
  else noRunning

theorem headerMarkup_eq (b : Branding) (l : Option Logo) (now : Instant) :
    headerMarkup b l now = headerFrame b l [.literal (headerText b now)] := rfl

def footerFrame (b : Branding) (inner : Option Markup) : Markup :=
  if b.footer.enabled then
    element "div" [styleAttribute (runningStyle b "top" "9pt" "#666666" ++ [printColours])]
      ((inner.map (element "div" [styleAttribute [("text-align", "center".toList)]])).getD [] ++
        if b.footer.pageNumber then pageLine else [])
  else noRunning

def footerInner (b : Branding) (now : Instant) (inner : Markup) : Option Markup :=
  if (footerText b now).isEmpty then none else some inner

theorem footerMarkup_eq (b : Branding) (now : Instant) : footerMarkup b now =
    footerFrame b (footerInner b now [.literal (footerText b now)]) := by
  unfold footerMarkup footerFrame footerInner
  by_cases h : (footerText b now).isEmpty = true <;> simp [h]

theorem hasTags_noRunning : HasTags noRunning (write noRunning) :=
  HasTags.nil.element isBare_span areBare_nil

theorem hasTags_headerFrame (b : Branding) {l : Option Logo}
    (hl : ∀ p ∈ l, IsPicture p) {m inner : Markup}
    (h : HasTags m (write inner)) :
    HasTags (headerFrame b l m) (write (headerFrame b l inner)) := by
  have hlogo : HasTags (((shownLogo b l).map logoMarkup).getD [])
      (write (((shownLogo b l).map logoMarkup).getD [])) := by
    unfold shownLogo
    cases b.enabled with
    | false => exact .nil
    | true =>
      cases l with
      | none => exact .nil
      | some p => exact hasTags_logoMarkup (hl p rfl)
  have hmiddle : AreBare [("vertical-align", "middle".toList)] :=
    areBare_literal (by decide) areBare_nil
  have hleft : AreBare [("text-align", "left".toList), printColours] :=
    areBare_literal (by decide) areBare_printColours
  have hcenter : AreBare [("text-align", "center".toList), printColours] :=
    areBare_literal (by decide) areBare_printColours
  have halign : ∀ left : Bool, AreBare
      [("text-align", (if left then "left" else "center").toList), printColours] := by
    intro left
    cases left with
    | false => exact hcenter
    | true => exact hleft
  have hstyle := areBare_append.2
    ⟨areBare_runningStyle b "bottom" "10pt" "" (isBare_ofList (by decide))
      (isBare_ofList (by decide)) (isBare_ofList (by decide)), halign (shownLogo b l).isSome⟩
  have hinner := h.element isBare_span (areBare_styleAttribute hmiddle)
  unfold headerFrame
  split
  · exact (hlogo.append hinner).element isBare_div (areBare_styleAttribute hstyle)
  · exact hasTags_noRunning

def counters : List Markup := [pageCounter, totalCounter]

theorem hasTags_counter {m : Markup} (h : m ∈ counters) : HasTags m (write m) := by
  simp only [counters, List.mem_cons, List.not_mem_nil, or_false] at h
  have hpage : AreBare [("class", "pageNumber".toList)] := areBare_literal (by decide) areBare_nil
  have htotal : AreBare [("class", "totalPages".toList)] := areBare_literal (by decide) areBare_nil
  obtain rfl | rfl := h
  · exact HasTags.nil.element isBare_span hpage
  · exact HasTags.nil.element isBare_span htotal

theorem hasTags_pageLine : HasTags pageLine (write pageLine) := by
  have hright : AreBare [("text-align", "right".toList)] :=
    areBare_literal (by decide) areBare_nil
  have hpage := hasTags_counter (m := pageCounter) (by simp [counters])
  have htotal := hasTags_counter (m := totalCounter) (by simp [counters])
  exact ((((HasTags.text _).append hpage).append (.text _)).append htotal).element isBare_div
    (areBare_styleAttribute hright)

theorem hasTags_footerFrame (b : Branding) {m inner : Markup} (h : HasTags m (write inner))
    (now : Instant) : HasTags (footerFrame b (footerInner b now m))
      (write (footerFrame b (footerInner b now inner))) := by
  have hcenter : AreBare [("text-align", "center".toList)] :=
    areBare_literal (by decide) areBare_nil
  have hstyle := areBare_append.2
    ⟨areBare_runningStyle b "top" "9pt" "#666666" (isBare_ofList (by decide))
      (isBare_ofList (by decide)) (isBare_ofList (by decide)), areBare_printColours⟩
  have hinner : HasTags
      (((footerInner b now m).map
        (element "div" [styleAttribute [("text-align", "center".toList)]])).getD [])
      (write (((footerInner b now inner).map
        (element "div" [styleAttribute [("text-align", "center".toList)]])).getD [])) := by
    unfold footerInner
    split
    · exact .nil
    · exact h.element isBare_div (areBare_styleAttribute hcenter)
  have hline : HasTags (if b.footer.pageNumber then pageLine else [])
      (write (if b.footer.pageNumber then pageLine else [])) := by
    split
    · exact hasTags_pageLine
    · exact .nil
  unfold footerFrame
  split
  · exact (hinner.append hline).element isBare_div (areBare_styleAttribute hstyle)
  · exact hasTags_noRunning

section Names
variable {m : Markup} (h : ∀ p ∈ m, p.IsRunning)
include h

theorem isRunning_div (attributes : List (String × Text)) :
    ∀ p ∈ element "div" attributes m, p.IsRunning :=
  forall_mem_element (by simp [Piece.IsRunning]) (by simp [Piece.IsRunning]) h

theorem isRunning_span (attributes : List (String × Text)) :
    ∀ p ∈ element "span" attributes m, p.IsRunning :=
  forall_mem_element (by simp [Piece.IsRunning]) (by simp [Piece.IsRunning]) h

theorem isRunning_headerFrame (b : Branding) (l : Option Logo) :
    ∀ p ∈ headerFrame b l m, p.IsRunning := by
  have hlogo : ∀ p ∈ ((shownLogo b l).map logoMarkup).getD [], p.IsRunning := by
    cases shownLogo b l with
    | none => simp
    | some q => simp [logoMarkup, Piece.IsRunning]
  unfold headerFrame
  split
  · exact isRunning_div (List.forall_mem_append.2 ⟨hlogo, isRunning_span h _⟩) _
  · exact isRunning_span (by simp) _

end Names

theorem isRunning_counter {m : Markup} (h : m ∈ counters) : ∀ p ∈ m, p.IsRunning := by
  simp only [counters, List.mem_cons, List.not_mem_nil, or_false] at h
  obtain rfl | rfl := h
  · exact isRunning_span (by simp) _
  · exact isRunning_span (by simp) _

theorem isRunning_pageLine : ∀ p ∈ pageLine, p.IsRunning := by
  have hpage := isRunning_counter (m := pageCounter) (by simp [counters])
  have htotal := isRunning_counter (m := totalCounter) (by simp [counters])
  refine isRunning_div (List.forall_mem_append.2 ⟨List.forall_mem_append.2
    ⟨List.forall_mem_append.2 ⟨?_, hpage⟩, ?_⟩, htotal⟩) _
  · simp [Piece.IsRunning]
  · simp [Piece.IsRunning]

theorem isRunning_footerFrame (b : Branding) (now : Instant) {m : Markup}
    (h : ∀ p ∈ m, p.IsRunning) : ∀ p ∈ footerFrame b (footerInner b now m), p.IsRunning := by
  have hinner : ∀ p ∈ ((footerInner b now m).map
      (element "div" [styleAttribute [("text-align", "center".toList)]])).getD [], p.IsRunning := by
    unfold footerInner
    split
    · simp
    · exact isRunning_div h _
  have hline : ∀ p ∈ (if b.footer.pageNumber then pageLine else []), p.IsRunning := by
    split
    · exact isRunning_pageLine
    · simp
  unfold footerFrame
  split
  · exact isRunning_div (List.forall_mem_append.2 ⟨hinner, hline⟩) _
  · exact isRunning_span (by simp) _

end Page
end Letterhead
