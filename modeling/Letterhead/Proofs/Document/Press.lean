import Letterhead.Document.Press
import Letterhead.Proofs.Branding.Merge
import Letterhead.Proofs.Logo.Process
import Letterhead.Proofs.Word.Writable

/-! Where a press fails, and has nothing to tell its callers about it: on a branding, on a logo, on what
cannot be written into a Word document, and where a library makes no bytes. -/
namespace Letterhead

def Failure.IsAnswered : Failure → Prop
  | formatDisabled _ _ | threadMissing _ | tooLarge _ _ | rendererUnavailable _ => True
  | _ => False

section Steps
variable {α β : Type} {x : Except Failure α} {f : α → Except Failure β}

def Breaks (x : Except Failure α) : Prop := ∃ e, x = .error e ∧ ¬ e.IsAnswered

@[simp] theorem breaks_error_iff {e : Failure} :
    Breaks (.error e : Except Failure α) ↔ ¬ e.IsAnswered := by
  simp [Breaks]

theorem not_breaks_of_failsOnly (h : FailsOnly Failure.IsAnswered x) : ¬ Breaks x :=
  fun ⟨e, he, hnot⟩ => hnot (h e he)

@[simp] theorem not_breaks_ok (a : α) : ¬ Breaks (.ok a) :=
  not_breaks_of_failsOnly (failsOnly_ok a)

/-- Where every failure is unanswered, whatever gives no value breaks. -/
theorem breaks_iff (h : FailsOnly (fun e => ¬ e.IsAnswered) x) : Breaks x ↔ ∀ a, x ≠ .ok a := by
  cases x with
  | error e => exact iff_of_true ⟨e, rfl, h e rfl⟩ fun a ha => by cases ha
  | ok a => exact iff_of_false (not_breaks_ok a) fun hnot => hnot a rfl

theorem breaks_bind_iff : Breaks (x >>= f) ↔ Breaks x ∨ ∃ a, x = .ok a ∧ Breaks (f a) := by
  cases x <;> simp [bind, Except.bind]

theorem breaks_check_iff {x : Except Failure Unit} {f : Unit → Except Failure β} :
    Breaks (x >>= f) ↔ Breaks x ∨ x = .ok () ∧ Breaks (f ()) := by
  cases x <;> simp [bind, Except.bind]

end Steps

/-! Logos -/

namespace Logo

theorem IsOfMaking.not_isAnswered {e : Failure} (h : IsOfMaking e) : ¬ e.IsAnswered := by
  cases e <;> first | exact h.elim | exact nofun

theorem Cache.failsOnly_load (g : Imaging) (c : Cache) (writable : Bool) (w : Surroundings)
    (s : Source) (box : Box) :
    FailsOnly (fun e => ¬ e.IsAnswered) (c.load g writable w s box).1 := by
  have hlogo : ∀ key, FailsOnly (fun e => ¬ e.IsAnswered) (c.logo? g key) := by
    intro key
    unfold logo?
    split
    · exact failsOnly_ok _
    · split
      · exact failsOnly_ok _
      · exact failsOnly_ok _
      · exact failsOnly_error nofun
  unfold load
  split
  · exact failsOnly_error nofun
  · next key _ =>
    have hkey := hlogo key
    split
    · next e he =>
      rw [he] at hkey
      exact failsOnly_error (hkey e rfl)
    · exact failsOnly_ok _
    · split
      · exact failsOnly_ok _
      · exact (failsOnly_process g w s box).imp fun e he => he.not_isAnswered

end Logo

namespace Branding

theorem failsOnly_logo? (b : Branding) (t : Tools) (c : Logo.Cache) :
    FailsOnly (fun e => ¬ e.IsAnswered) (b.logo? t c).1 := by
  unfold logo?
  split
  · exact Logo.Cache.failsOnly_load _ _ _ _ _ _
  · exact failsOnly_ok _

/-- Only an enabled branding has a logo. -/
theorem enabled_of_logo? {b : Branding} {t : Tools} {c : Logo.Cache} {l : Logo}
    (h : (b.logo? t c).1 = .ok (some l)) : b.enabled = true := by
  unfold logo? at h
  split at h
  · next henabled => exact (Bool.and_eq_true_iff.1 henabled).1
  · cases h

end Branding

/-! Brandings of requests -/

namespace Settings

/-- A request without a branding of its own has one in any case. -/
theorem exists_toPatch_override (r : Request) :
    (∃ p, (override .empty r).toPatch = .ok p) ↔ ∀ fields, r.branding = some fields →
      ∃ p, BrandingPatch.read (Json.dropNulls (.object fields)) = .ok p := by
  have hpreset : ∀ name, ∃ p, (Preset.layer name).toPatch = .ok p := by
    intro name
    unfold Preset.layer
    cases Preset.find? name <;> exact ⟨_, rfl⟩
  cases hb : r.branding with
  | some fields =>
    have hover : override .empty r = .raw (.object fields) := by simp [override, hb]
    have hpatch : (∃ p, (BrandingLayer.raw (.object fields)).toPatch = .ok p) ↔
        ∃ p, BrandingPatch.read (Json.dropNulls (.object fields)) = .ok p := by
      rw [BrandingLayer.toPatch]
      cases BrandingPatch.read (Json.dropNulls (.object fields)) <;> simp
    rw [hover, hpatch]
    simp
  | none =>
    refine iff_of_true ?_ fun fields h => by cases h
    cases hc : r.category with
    | some name =>
      have hover : override .empty r = Preset.layer name := by simp [override, hb, hc]
      rw [hover]
      exact hpreset name
    | none =>
      have hover : override .empty r = .empty := by simp [override, hb, hc]
      rw [hover]
      exact ⟨_, rfl⟩

theorem exists_resolve_iff (r : Request) :
    (∃ b, ({} : Settings).resolve .empty r = .ok b) ↔ ∀ fields, r.branding = some fields →
      ∃ p, BrandingPatch.read (Json.dropNulls (.object fields)) = .ok p := by
  rw [resolve, Branding.exists_merge_iff, List.forall_mem_cons, List.forall_mem_singleton,
    and_iff_right ⟨_, rfl⟩]
  exact exists_toPatch_override r

end Settings

theorem BrandingLayer.failsOnly_toPatch (l : BrandingLayer) :
    FailsOnly (fun e => ¬ e.IsAnswered) l.toPatch := by
  unfold toPatch
  split
  · exact failsOnly_ok _
  · exact failsOnly_ok _
  · exact failsOnly_ok _
  · split
    · exact failsOnly_ok _
    · exact failsOnly_error nofun
  · exact failsOnly_error nofun

theorem Word.IsOfPart.not_isAnswered {e : Failure} (h : IsOfPart e) : ¬ e.IsAnswered := by
  cases e <;> first | exact h.elim | exact nofun

namespace Press
variable {p : Press} {c : Logo.Cache} {now : Instant} {b : Branding} {r : Request}

/-- Brandings fail unanswered. -/
theorem failsOnly_brandingOf (p : Press) (r : Request) :
    FailsOnly (fun e => ¬ e.IsAnswered) (p.brandingOf r) := by
  have hmerge : ∀ layers, FailsOnly (fun e => ¬ e.IsAnswered) (Branding.merge layers) :=
    fun layers => Branding.failsOnly_merge fun l _ => l.failsOnly_toPatch
  unfold brandingOf
  simp only
  split
  · exact failsOnly_error nofun
  · split
    · exact hmerge _
    · exact (hmerge _).bind fun _ _ => failsOnly_error nofun

/-- Of the layers of a branding under the standard settings, only objects can be nested too deep. -/
theorem reaches_override_iff : p.reaches (Settings.override .empty r) = true ↔
    ∀ fields, r.branding = some fields → p.isShallow (.object fields) = true := by
  cases hb : r.branding with
  | some fields => simp [Settings.override, hb, reaches]
  | none =>
    refine iff_of_true ?_ nofun
    cases hc : r.category with
    | some name =>
      simp only [Settings.override, hb, hc, Preset.layer]
      cases Preset.find? name <;> rfl
    | none => simp [Settings.override, hb, hc, reaches]

/-- Under the standard settings a request has a branding unless its own is nested too deep or cannot be
read; not even the empty one of the settings may be too deep. -/
theorem exists_brandingOf_iff (hp : p.settings = {}) (hcategory : p.category = .empty) :
    (∃ b, p.brandingOf r = .ok b) ↔ p.isShallow (.object []) = true ∧
      ∀ fields, r.branding = some fields → p.isShallow (.object fields) = true ∧
        ∃ q, BrandingPatch.read (Json.dropNulls (.object fields)) = .ok q := by
  have hbase : p.reaches (.raw (.object p.settings.branding)) = p.isShallow (.object []) := by
    rw [hp]
    rfl
  have hdeep : ∀ b, (Branding.merge [.raw (.object p.settings.branding)] >>= fun _ =>
      (.error .tooDeep : Except Failure Branding)) ≠ .ok b := by
    intro b h
    obtain ⟨-, -, h⟩ := exists_of_bind_eq_ok h
    cases h
  have hresolve := Settings.exists_resolve_iff r
  simp only [forall_and, ← reaches_override_iff (p := p), ← hresolve]
  unfold brandingOf
  simp only [hbase, hcategory]
  cases p.isShallow (.object []) with
  | false => simp
  | true =>
    cases p.reaches (Settings.override .empty r) with
    | false => simp [hdeep]
    | true => simp [hp]

/-! Rendering -/

theorem breaks_logoFor_iff : Breaks (p.logoFor c b r.format).1 ↔
    r.format ≠ .md ∧ ∀ l, (b.logo? p.toTools c).1 ≠ .ok l := by
  cases hformat : r.format with
  | md => simp [logoFor]
  | docx | pdf => simp [logoFor, breaks_iff (b.failsOnly_logo? p.toTools c)]

theorem breaks_madeBytes_iff {made : Option ByteArray} {f : ByteArray → Rendering} :
    Breaks (madeBytes made >>= fun bytes => .ok (f bytes)) ↔ made = none := by
  cases made with
  | none => exact iff_of_true ⟨.unfinished, rfl, nofun⟩ rfl
  | some bytes => exact iff_of_false (not_breaks_ok _) nofun

theorem breaks_compose_docx_iff {l : Option Logo} (hformat : r.format = .docx) :
    Breaks (p.compose now b r l) ↔
      (∀ d, Word.document (segment r.content) b r.title r.metadata l now ≠ .ok d) ∨
        ∃ d, Word.document (segment r.content) b r.title r.metadata l now = .ok d ∧
          p.pack d l = none := by
  have hfails : FailsOnly (fun e => ¬ e.IsAnswered)
      (Word.document (segment r.content) b r.title r.metadata l now) :=
    Word.failsOnly_document.imp fun e he => he.not_isAnswered
  rw [compose, hformat, ← breaks_iff hfails]
  simp only
  rw [breaks_bind_iff]
  exact or_congr_right (exists_congr fun d => and_congr_right fun _ => breaks_madeBytes_iff)

/-- A printer that is missing or does not run is told; what is left is the library that finishes. -/
theorem breaks_compose_pdf_iff {l : Option Logo} (hformat : r.format = .pdf) :
    Breaks (p.compose now b r l) ↔ ∃ pages, p.printer = .ready pages ∧
      p.finish (Page.job (segment r.content) b r.title l now)
        (Page.information r.title b (r.metadata.getD {})) pages = none := by
  rw [compose, hformat]
  cases hprinter : p.printer with
  | absent => simp [Page.Printer.print, Failure.IsAnswered, bind, Except.bind]
  | broken reason => simp [Page.Printer.print, Failure.IsAnswered, bind, Except.bind]
  | ready pages =>
    simp only [Page.Printer.ready.injEq, exists_eq_left']
    exact breaks_madeBytes_iff

theorem not_breaks_compose_md {l : Option Logo} (hformat : r.format = .md) :
    ¬ Breaks (p.compose now b r l) := by
  rw [compose, hformat]
  exact not_breaks_ok _

theorem checkFormat_standard (f : Format) : checkFormat {} f = .ok () := by
  cases f <;> rfl

theorem breaks_checkSize_iff (settings : Settings) (d : Rendering) :
    Breaks (checkSize settings d) ↔ ∀ x, Size.megabytes d.bytes.size ≠ .ok x := by
  have hfails : FailsOnly (fun e => ¬ e.IsAnswered) (Size.megabytes d.bytes.size) := by
    unfold Size.megabytes
    split
    · exact failsOnly_error nofun
    · exact failsOnly_ok _
  rw [checkSize, breaks_bind_iff, breaks_iff hfails, or_iff_left]
  rintro ⟨x, -, hx⟩
  refine not_breaks_of_failsOnly ?_ hx
  split
  · exact failsOnly_error ⟨⟩
  · exact failsOnly_ok _

/-- The answer of a press, step by step. -/
theorem fst_make : (p.make c now r).1 = checkFormat p.settings r.format >>= fun _ =>
    p.brandingOf r >>= fun b => (p.render c now b r).1 >>= fun d =>
      checkSize p.settings d >>= fun _ => .ok (b, d) := by
  unfold make
  cases checkFormat p.settings r.format with
  | error e => rfl
  | ok u => cases p.brandingOf r <;> rfl

theorem breaks_make_iff (hformat : checkFormat p.settings r.format = .ok ()) :
    Breaks (p.make c now r).1 ↔ (∀ b, p.brandingOf r ≠ .ok b) ∨
      ∃ b, p.brandingOf r = .ok b ∧ (Breaks (p.render c now b r).1 ∨
        ∃ d, (p.render c now b r).1 = .ok d ∧ ∀ x, Size.megabytes d.bytes.size ≠ .ok x) := by
  rw [fst_make, hformat, ← breaks_iff (p.failsOnly_brandingOf r)]
  have hok : ∀ f : Unit → Except Failure (Branding × Rendering), (.ok () >>= f) = f () :=
    fun _ => rfl
  simp only [hok, breaks_bind_iff, breaks_checkSize_iff, not_breaks_ok, and_false, exists_false,
    or_false]

end Press
end Letterhead
