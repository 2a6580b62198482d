import Letterhead.Proofs.Word.Writable

/-! Colours of the text in a Word document: the primary colour of the branding, gray, and white. The
blocks of its body add no other. -/
namespace Letterhead.Word

def Content.colour? : Content → Option Text
  | run s _ => s.colour
  | field _ s _ => s.colour
  | picture _ _ _ => none

def Paragraph.colours (p : Paragraph) : List Text := p.content.filterMap Content.colour?

def Document.paragraphs (d : Document) : List Paragraph :=
  d.header.toList ++ d.footer.getD [] ++ d.body.flatMap Element.paragraphs

def Document.colours (d : Document) : List Text := d.paragraphs.flatMap Paragraph.colours

/-- The colours that text can be set in under a branding. -/
def palette (b : Branding) : List Text := [primaryOf b, gray, white]

def Content.SetIn (cs : List Text) (k : Content) : Prop := ∀ c ∈ k.colour?, c ∈ cs

theorem colours_subset_iff {p : Paragraph} {cs : List Text} :
    p.colours ⊆ cs ↔ p.Holds (Content.SetIn cs) := by
  simp only [Paragraph.colours, Paragraph.Holds, Content.SetIn, List.subset_def,
    List.mem_filterMap, Option.mem_def]
  exact ⟨fun h k hk c hc => h ⟨k, hk, hc⟩, fun h c ⟨k, hk, hc⟩ => h k hk c hc⟩

section Body
variable {cs : List Text}

theorem setIn_of_none {k : Content} (h : k.colour? = none) : k.SetIn cs := by
  intro c hc
  rw [h] at hc
  cases hc

theorem setIn_of_some {k : Content} {c : Text} (h : k.colour? = some c) (hc : c ∈ cs) :
    k.SetIn cs := by
  intro d hd
  rw [h] at hd
  exact Option.some.inj hd ▸ hc

/-- Only the head of a table gives a colour to the text of a block. -/
theorem sets_colour (hwhite : white ∈ cs) (th : Theme) :
    Sets th (fun _ => True) (Content.SetIn cs) where
  body _ _ := setIn_of_none rfl
  head _ _ := setIn_of_some rfl hwhite
  code _ _ _ := List.forall_mem_singleton.2 (setIn_of_none rfl)
  plain _ _ := setIn_of_none rfl

theorem holds_body (th : Theme) (hprimary : th.primary ∈ cs) (hgray : gray ∈ cs)
    (hwhite : white ∈ cs) (title : Text) (contents : Bool) (blocks : List Block) :
    ∀ e ∈ body th title contents blocks, ∀ p ∈ e.paragraphs, p.Holds (Content.SetIn cs) := by
  have htitle : ∀ e ∈ titleElements th title, ∀ p ∈ e.paragraphs, p.Holds (Content.SetIn cs) := by
    rw [titleElements, List.forall_mem_cons, List.forall_mem_singleton]
    refine ⟨List.forall_mem_singleton.2 (List.forall_mem_singleton.2 ?_), holds_spacer 400⟩
    exact setIn_of_some rfl hprimary
  have hcontents : ∀ e ∈ contentsElements th, ∀ p ∈ e.paragraphs, p.Holds (Content.SetIn cs) := by
    rw [contentsElements, List.forall_mem_cons, List.forall_mem_cons, List.forall_mem_singleton]
    refine ⟨List.forall_mem_singleton.2 (List.forall_mem_singleton.2 ?_),
      List.forall_mem_singleton.2 (List.forall_mem_singleton.2 ?_), holds_spacer 400⟩
    · exact setIn_of_some rfl hprimary
    · exact setIn_of_some rfl hgray
  rw [body, List.forall_mem_append, List.forall_mem_append]
  refine ⟨⟨htitle, ?_⟩, fun e he => ?_⟩
  · split
    · exact hcontents
    · exact fun e he => by cases he
  · obtain ⟨b, -, hb⟩ := List.mem_flatMap.1 he
    exact holds_ofBlock (sets_colour hwhite th) (fun _ _ => trivial) e hb

end Body

section Parts
variable {b : Branding} {l : Option Logo} {now : Instant}

theorem mem_palette : primaryOf b ∈ palette b ∧ gray ∈ palette b ∧ white ∈ palette b := by
  simp [palette]

theorem setIn_logoPart {logo : List Content} (h : logoPart b l = .ok logo) :
    ∀ k ∈ logo, k.SetIn (palette b) := by
  unfold logoPart at h
  cases l with
  | none =>
    cases h
    exact fun k hk => by cases hk
  | some picture =>
    simp only at h
    split at h
    · cases hname : Logo.fileName picture.bytes with
      | error f =>
        rw [hname] at h
        cases h
      | ok name =>
        rw [hname] at h
        cases h
        exact List.forall_mem_cons.2
          ⟨setIn_of_none rfl, List.forall_mem_singleton.2 (setIn_of_none rfl)⟩
    · cases h
      exact fun k hk => by cases hk

theorem holds_header {logo : List Content} (hlogo : ∀ k ∈ logo, k.SetIn (palette b)) :
    (header b logo now).Holds (Content.SetIn (palette b)) := by
  rw [Paragraph.Holds, content_header, List.forall_mem_append]
  refine ⟨hlogo, ?_⟩
  split
  · exact fun k hk => by cases hk
  · exact List.forall_mem_singleton.2 (setIn_of_some rfl mem_palette.1)

theorem holds_footer (b : Branding) (now : Instant) :
    ∀ p ∈ footer b now, p.Holds (Content.SetIn (palette b)) := by
  have hgray : ∀ k : Content, k.colour? = some gray → k.SetIn (palette b) :=
    fun k hk => setIn_of_some hk mem_palette.2.1
  have hline : pageLine.Holds (Content.SetIn (palette b)) := by
    simp only [Paragraph.Holds, pageLine, List.forall_mem_cons]
    exact ⟨hgray _ rfl, hgray _ rfl, hgray _ rfl, hgray _ rfl, fun k hk => by cases hk⟩
  rw [footer, List.cons_append, List.forall_mem_cons, List.forall_mem_append]
  refine ⟨holds_of_content_nil rfl, ?_, ?_⟩
  · split
    · exact fun p hp => by cases hp
    · exact List.forall_mem_singleton.2 (List.forall_mem_singleton.2 (hgray _ rfl))
  · split
    · exact List.forall_mem_singleton.2 hline
    · exact fun p hp => by cases hp

theorem holds_headerPart {head : Option Paragraph} (h : headerPart b l now = .ok head) :
    ∀ p ∈ head, p.Holds (Content.SetIn (palette b)) := by
  unfold headerPart at h
  split at h
  · obtain ⟨logo, hlogo, h⟩ := exists_of_bind_eq_ok h
    obtain ⟨-, -, h⟩ := exists_of_bind_eq_ok h
    cases h
    intro p hp
    obtain rfl := Option.some.inj hp
    exact holds_header (setIn_logoPart hlogo)
  · cases h
    exact fun p hp => by cases hp

theorem holds_footerPart {foot : Option (List Paragraph)} (h : footerPart b now = .ok foot) :
    ∀ p ∈ foot.getD [], p.Holds (Content.SetIn (palette b)) := by
  unfold footerPart at h
  split at h
  · obtain ⟨-, -, h⟩ := exists_of_bind_eq_ok h
    cases h
    exact holds_footer b now
  · cases h
    exact fun p hp => by cases hp

/-- The text of a document is set in the primary colour of its branding, in gray and in white. -/
theorem colours_document {blocks : List Block} {title : Text} {m : Option Metadata} {d : Document}
    (h : document blocks b title m l now = .ok d) : d.colours ⊆ palette b := by
  obtain ⟨-, -, h⟩ := exists_of_bind_eq_ok h
  obtain ⟨-, -, h⟩ := exists_of_bind_eq_ok h
  obtain ⟨head, hhead, h⟩ := exists_of_bind_eq_ok h
  obtain ⟨foot, hfoot, h⟩ := exists_of_bind_eq_ok h
  obtain ⟨-, -, h⟩ := exists_of_bind_eq_ok h
  cases h
  obtain ⟨hprimary, hgray, hwhite⟩ := mem_palette (b := b)
  have hall : ∀ p ∈ head.toList ++ foot.getD [] ++
      (body (themeOf b) title (m.getD {}).contents blocks).flatMap Element.paragraphs,
      p.Holds (Content.SetIn (palette b)) := by
    rw [List.forall_mem_append, List.forall_mem_append]
    refine ⟨⟨fun p hp => ?_, holds_footerPart hfoot⟩, fun p hp => ?_⟩
    · exact holds_headerPart hhead p (Option.mem_toList.1 hp)
    · obtain ⟨e, he, hp⟩ := List.mem_flatMap.1 hp
      exact holds_body (themeOf b) hprimary hgray hwhite title _ blocks e he p hp
  intro c hc
  obtain ⟨p, hp, hc⟩ := List.mem_flatMap.1 hc
  exact colours_subset_iff.2 (hall p hp) hc

end Parts

end Letterhead.Word
