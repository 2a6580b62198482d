import Letterhead.Proofs.Word.Characters

/-! When a Word document can be written: its properties are short enough, and XML can hold the
characters of its properties, its font, its header and footer, and its body. -/
namespace Letterhead

namespace Word

theorem checkProperty_eq_ok_iff {t : Text} :
    checkProperty t = .ok () ↔ t.length ≤ Failure.propertyLimit ∧ IsAllowedText t := by
  unfold checkProperty
  split
  · next h => exact iff_of_false nofun fun hand => absurd hand.1 (Nat.not_le.2 h)
  · next h => rw [checkText_eq_ok_iff, and_iff_right (Nat.not_lt.1 h)]

/-- What a Word document needs of its texts. -/
structure IsWritable (blocks : List Block) (b : Branding) (title : Text) (m : Option Metadata)
    (now : Instant) : Prop where
  font : IsAllowedText (themeOf b).font
  properties : ∀ t ∈ (properties title b (m.getD {})).all,
    t.length ≤ Failure.propertyLimit ∧ IsAllowedText t
  header : b.header.enabled = true → IsAllowedText (headerText b now)
  footer : b.footer.enabled = true → IsAllowedText (footerText b now)
  body : ∀ e ∈ blocks.flatMap (ofBlock (themeOf b)), ∀ p ∈ e.paragraphs,
    p.Spells fun c => isAllowed c = true

/-- A paragraph of one run spells the characters of that run. -/
theorem spells_run_iff {S : Char → Prop} {p : Paragraph} {s : RunStyle} {t : Text}
    (hp : p.content = [.run s t]) : p.Spells S ↔ ∀ c ∈ t, S c := by
  simp [Paragraph.Spells, hp, Content.text]

theorem forall_isAllowed {cs : List Content} (h : (cs.all fun c => c.text.all isAllowed) = true) :
    ∀ c ∈ cs, ∀ x ∈ c.text, isAllowed x = true :=
  fun c hc => List.all_eq_true.1 (List.all_eq_true.1 h c hc)

theorem content_header (b : Branding) (logo : List Content) (now : Instant) :
    (header b logo now).content = logo ++ if (headerText b now).isEmpty then [] else [.run
      { bold := some true, colour := some (primaryOf b), size := some 20 } (headerText b now)] := by
  unfold header
  simp only
  generalize (logo ++ if (headerText b now).isEmpty then [] else _) = content
  cases content <;> rfl

theorem checkParagraph_header_iff {b : Branding} {logo : List Content} {now : Instant}
    (hlogo : ∀ c ∈ logo, ∀ x ∈ c.text, isAllowed x = true) :
    checkParagraph (header b logo now) = .ok () ↔ IsAllowedText (headerText b now) := by
  rw [checkParagraph_eq_ok_iff, Paragraph.Spells, content_header, List.forall_mem_append,
    and_iff_right hlogo]
  split
  · next h =>
    rw [List.isEmpty_iff] at h
    simp [IsAllowedText, h]
  · simp [IsAllowedText, Content.text]

theorem forM_footer_iff (b : Branding) (now : Instant) :
    (footer b now).forM checkParagraph = .ok () ↔ IsAllowedText (footerText b now) := by
  have hline : pageLine.Spells fun c => isAllowed c = true := forall_isAllowed (by decide)
  simp only [forM_eq_ok_iff, checkParagraph_eq_ok_iff, footer, List.cons_append,
    List.forall_mem_cons, List.forall_mem_append]
  rw [and_iff_right (spells_of_content_nil rfl)]
  constructor
  · rintro ⟨htext, -⟩
    split at htext
    · next h =>
      rw [List.isEmpty_iff] at h
      simp [IsAllowedText, h]
    · exact (spells_run_iff rfl).1 (List.forall_mem_singleton.1 htext)
  · intro h
    constructor
    · split
      · exact fun p hp => by cases hp
      · exact List.forall_mem_singleton.2 ((spells_run_iff rfl).2 h)
    · split
      · exact List.forall_mem_singleton.2 hline
      · exact fun p hp => by cases hp

variable {blocks : List Block} {b : Branding} {title : Text} {m : Option Metadata} {l : Option Logo}
  {now : Instant}

/-- The pictures of a document are of a kind that has a name. -/
def IsNamed (l : Option Logo) : Prop := ∀ k, l = some k → ∃ name, Logo.fileName k.bytes = .ok name

def logoSpace (b : Branding) (l : Option Logo) : Text :=
  if b.enabled ∧ l.isSome then "    ".toList else []

theorem exists_logoPart (hl : IsNamed l) (b : Branding) :
    ∃ cs, logoPart b l = .ok cs ∧ cs.flatMap Content.text = logoSpace b l := by
  unfold logoPart logoSpace
  cases l with
  | none => exact ⟨[], rfl, by simp⟩
  | some k =>
    obtain ⟨name, hname⟩ := hl k rfl
    simp only [hname]
    cases b.enabled with
    | true => exact ⟨logoContent name k, rfl, by simp [logoContent, Content.text]⟩
    | false => exact ⟨[], rfl, by simp⟩

theorem isAllowed_logoSpace {cs : List Content} (h : cs.flatMap Content.text = logoSpace b l) :
    ∀ c ∈ cs, ∀ x ∈ c.text, isAllowed x = true := by
  have hspace : ("    ".toList.all isAllowed) = true := by decide +kernel
  intro c hc x hx
  have hmem : x ∈ logoSpace b l := h ▸ List.mem_flatMap.2 ⟨c, hc, hx⟩
  unfold logoSpace at hmem
  split at hmem
  · exact List.all_eq_true.1 hspace x hmem
  · cases hmem

theorem exists_headerPart_eq (hl : IsNamed l) (henabled : b.header.enabled = true) (now : Instant) :
    ∃ cs, cs.flatMap Content.text = logoSpace b l ∧ headerPart b l now =
      checkParagraph (header b cs now) >>= fun _ => .ok (some (header b cs now)) := by
  obtain ⟨cs, hcs, hspace⟩ := exists_logoPart hl b
  refine ⟨cs, hspace, ?_⟩
  rw [headerPart, if_pos henabled, hcs]
  rfl

theorem footerPart_eq (henabled : b.footer.enabled = true) (now : Instant) : footerPart b now =
    (footer b now).forM checkParagraph >>= fun _ => .ok (some (footer b now)) := by
  rw [footerPart, if_pos henabled]
  rfl

theorem exists_headerPart_iff (hl : IsNamed l) :
    (∃ h, headerPart b l now = .ok h) ↔
      (b.header.enabled = true → IsAllowedText (headerText b now)) := by
  by_cases henabled : b.header.enabled = true
  · obtain ⟨cs, hspace, hpart⟩ := exists_headerPart_eq hl henabled now
    rw [hpart, imp_iff_right henabled, ← checkParagraph_header_iff (isAllowed_logoSpace hspace)]
    exact exists_check_eq_ok_iff.trans (and_iff_left ⟨_, rfl⟩)
  · have hnone : headerPart b l now = .ok none := by
      rw [headerPart, if_neg henabled]
      rfl
    exact iff_of_true ⟨_, hnone⟩ fun h => absurd h henabled

theorem exists_footerPart_iff :
    (∃ f, footerPart b now = .ok f) ↔
      (b.footer.enabled = true → IsAllowedText (footerText b now)) := by
  by_cases henabled : b.footer.enabled = true
  · rw [footerPart_eq henabled, imp_iff_right henabled, ← forM_footer_iff]
    exact exists_check_eq_ok_iff.trans (and_iff_left ⟨_, rfl⟩)
  · have hnone : footerPart b now = .ok none := by
      rw [footerPart, if_neg henabled]
      rfl
    exact iff_of_true ⟨_, hnone⟩ fun h => absurd h henabled

theorem forM_body_iff (contents : Bool) (ht : IsAllowedText title) :
    ((body (themeOf b) title contents blocks).forM fun e => e.paragraphs.forM checkParagraph) =
        .ok () ↔ ∀ e ∈ blocks.flatMap (ofBlock (themeOf b)), ∀ p ∈ e.paragraphs,
      p.Spells fun c => isAllowed c = true := by
  have htitle : ∀ e ∈ titleElements (themeOf b) title, ∀ p ∈ e.paragraphs,
      p.Spells fun c => isAllowed c = true := by
    rw [titleElements, List.forall_mem_cons, List.forall_mem_singleton]
    exact ⟨List.forall_mem_singleton.2 ((spells_run_iff rfl).2 ht), spells_spacer 400⟩
  have hcontents : ∀ e ∈ contentsElements (themeOf b), ∀ p ∈ e.paragraphs,
      p.Spells fun c => isAllowed c = true := by
    rw [contentsElements, List.forall_mem_cons, List.forall_mem_cons, List.forall_mem_singleton]
    refine ⟨List.forall_mem_singleton.2 ((spells_run_iff rfl).2 ?_),
      List.forall_mem_singleton.2 ?_, spells_spacer 400⟩
    · exact List.all_eq_true.1 (by decide)
    · simp [Paragraph.Spells, Content.text]
  simp only [forM_eq_ok_iff, checkParagraph_eq_ok_iff, body, List.append_assoc,
    List.forall_mem_append]
  rw [and_iff_right htitle]
  refine and_iff_right ?_
  split
  · exact hcontents
  · exact fun e he => by cases he

/-- A document is made exactly when its texts can be written. -/
theorem exists_document_iff (hl : IsNamed l) :
    (∃ d, document blocks b title m l now = .ok d) ↔ IsWritable blocks b title m now := by
  have hbody : ∀ head foot, IsAllowedText title → ((∃ d : Document, (do
      (body (themeOf b) title (m.getD {}).contents blocks).forM fun e =>
        e.paragraphs.forM checkParagraph
      return {
        styles := styles (themeOf b), properties := properties title b (m.getD {})
        header := head, footer := foot
        body := body (themeOf b) title (m.getD {}).contents blocks } :
          Except Failure Document) = .ok d) ↔
      ∀ e ∈ blocks.flatMap (ofBlock (themeOf b)), ∀ p ∈ e.paragraphs,
        p.Spells fun c => isAllowed c = true) := fun head foot ht =>
    exists_check_eq_ok_iff.trans ((and_iff_left ⟨_, rfl⟩).trans (forM_body_iff _ ht))
  unfold document
  simp only
  rw [exists_check_eq_ok_iff, exists_check_eq_ok_iff, exists_bind_eq_ok_iff, checkText_eq_ok_iff,
    forM_eq_ok_iff]
  simp only [checkProperty_eq_ok_iff]
  constructor
  · rintro ⟨hfont, hproperties, head, hhead, hrest⟩
    obtain ⟨foot, hfoot, hrest⟩ := exists_bind_eq_ok_iff.1 hrest
    -- The title of the body has been checked before, as a property.
    have ht : IsAllowedText title := (hproperties title (by simp [Properties.all, properties])).2
    exact ⟨hfont, hproperties, (exists_headerPart_iff hl).1 ⟨head, hhead⟩,
      exists_footerPart_iff.1 ⟨foot, hfoot⟩, (hbody head foot ht).1 hrest⟩
  · rintro ⟨hfont, hproperties, hheader, hfooter, hblocks⟩
    obtain ⟨head, hhead⟩ := (exists_headerPart_iff hl).2 hheader
    obtain ⟨foot, hfoot⟩ := exists_footerPart_iff.2 hfooter
    have ht : IsAllowedText title := (hproperties title (by simp [Properties.all, properties])).2
    exact ⟨hfont, hproperties, head, hhead,
      exists_bind_eq_ok_iff.2 ⟨foot, hfoot, (hbody head foot ht).2 hblocks⟩⟩

/-- A header that is not there, or of a branding that is not enabled, shows no logo. -/
theorem headerPart_of_not_shown (h : ¬ (b.header.enabled = true ∧ b.enabled = true))
    (l : Option Logo) : headerPart b l now = headerPart b none now := by
  unfold headerPart
  split
  · next henabled =>
    have hoff : ¬ b.enabled = true := fun hon => h ⟨henabled, hon⟩
    have hnone : logoPart b l = logoPart b none := by
      cases l with
      | none => rfl
      | some k => exact if_neg hoff
    rw [hnone]
  · rfl

/-- A document is made exactly when its texts can be written and a logo that it shows has a name. -/
theorem exists_document_iff_shown : (∃ d, document blocks b title m l now = .ok d) ↔
    IsWritable blocks b title m now ∧
      (b.header.enabled = true → b.enabled = true → IsNamed l) := by
  by_cases hshown : b.header.enabled = true ∧ b.enabled = true
  · simp only [hshown, true_imp_iff]
    by_cases hl : IsNamed l
    · rw [exists_document_iff hl, and_iff_left hl]
    · refine iff_of_false ?_ fun hand => hl hand.2
      rintro ⟨d, hd⟩
      obtain ⟨-, -, hd⟩ := exists_of_bind_eq_ok hd
      obtain ⟨-, -, hd⟩ := exists_of_bind_eq_ok hd
      obtain ⟨head, hhead, -⟩ := exists_of_bind_eq_ok hd
      rw [headerPart, if_pos hshown.1] at hhead
      obtain ⟨cs, hcs, -⟩ := exists_of_bind_eq_ok hhead
      refine hl fun k hk => ?_
      rw [hk, logoPart] at hcs
      simp only [hshown.2, if_true] at hcs
      obtain ⟨name, hname, -⟩ := exists_of_map_eq_ok hcs
      exact ⟨name, hname⟩
  · have hsame : document blocks b title m l now = document blocks b title m none now := by
      unfold document
      simp only [headerPart_of_not_shown hshown l]
    rw [hsame, exists_document_iff (l := none) nofun]
    exact (and_iff_left fun hheader hbranding => absurd ⟨hheader, hbranding⟩ hshown).symm

def IsOfPart : Failure → Prop
  | .forbiddenCharacter | .longProperty _ | .unrecognizedPicture => True
  | _ => False

theorem failsOnly_checkText (t : Text) : FailsOnly IsOfPart (checkText t) := by
  unfold checkText
  split
  · exact failsOnly_ok _
  · exact failsOnly_error ⟨⟩

theorem failsOnly_checkProperty (t : Text) : FailsOnly IsOfPart (checkProperty t) := by
  unfold checkProperty
  split
  · exact failsOnly_error ⟨⟩
  · exact failsOnly_checkText t

theorem failsOnly_checkParagraph (p : Paragraph) : FailsOnly IsOfPart (checkParagraph p) :=
  FailsOnly.forM fun c _ => failsOnly_checkText c.text

theorem failsOnly_logoPart (b : Branding) (l : Option Logo) : FailsOnly IsOfPart (logoPart b l) := by
  unfold logoPart
  split
  · split
    · refine FailsOnly.map ?_
      unfold Logo.fileName
      split
      · exact failsOnly_ok _
      · exact failsOnly_error ⟨⟩
    · exact failsOnly_ok _
  · exact failsOnly_ok _

/-- A document that cannot be made fails on a text or on its logo. -/
theorem failsOnly_document : FailsOnly IsOfPart (document blocks b title m l now) := by
  have hhead : FailsOnly IsOfPart (headerPart b l now) := by
    unfold headerPart
    split
    · refine (failsOnly_logoPart b l).bind fun _ _ => ?_
      exact (failsOnly_checkParagraph _).bind fun _ _ => failsOnly_ok _
    · exact failsOnly_ok _
  have hfoot : FailsOnly IsOfPart (footerPart b now) := by
    unfold footerPart
    split
    · exact (FailsOnly.forM fun p _ => failsOnly_checkParagraph p).bind fun _ _ => failsOnly_ok _
    · exact failsOnly_ok _
  refine (failsOnly_checkText _).bind fun _ _ => ?_
  refine (FailsOnly.forM fun t _ => failsOnly_checkProperty t).bind fun _ _ => ?_
  refine hhead.bind fun head _ => hfoot.bind fun foot _ => ?_
  refine (FailsOnly.forM fun e _ => FailsOnly.forM fun p _ => failsOnly_checkParagraph p).bind
    fun _ _ => failsOnly_ok _

end Word
end Letterhead
