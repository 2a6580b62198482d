import Letterhead.Proofs.Document.Press
import Letterhead.Proofs.Service.Download

/-! Answers to calls that ask for a document, under the standard settings. A document, a thread that
there is not, a document that is too large and a missing printer are answered as documented. What else
can stand in the way of a document is listed here, and each of it breaks the answer. -/
namespace Letterhead

theorem Service.status_failed_iff (e : Failure) :
    ((failed e).status ∈ [200, 400, 413, 503] ↔ e.IsAnswered) ∧
      ((failed e).status = 500 ↔ ¬ e.IsAnswered) := by
  cases e <;> simp [Failure.IsAnswered, failed, Answer.refused, Answer.detail, Answer.json,
    Answer.broken, Answer.plain]

namespace Store
variable {s : Store} {p : Press} {now : Instant} {r : Request} {numbering : Numbering}

theorem failsOnly_target (fs : Files) (name : Text) (t : Layout) :
    FailsOnly (fun e => ¬ e.IsAnswered) (fs.target name t) := by
  unfold Files.target
  split
  · exact failsOnly_error nofun
  · split
    · refine failsOnly_error ?_
      split
      · exact nofun
      · split <;> exact nofun
    · exact failsOnly_error nofun
    · split
      · exact failsOnly_error nofun
      · exact failsOnly_ok _

theorem failsOnly_checkThread (s : Store) (thread : Option Text) :
    FailsOnly Failure.IsAnswered (s.checkThread thread) := by
  unfold checkThread
  split
  · exact failsOnly_ok _
  · split
    · exact failsOnly_ok _
    · exact failsOnly_error ⟨⟩

theorem failsOnly_expiry (settings : Settings) (now : Instant) :
    FailsOnly (fun e => ¬ e.IsAnswered) (expiry settings now) := by
  intro e he
  rw [eq_overflow_of_expiry he]
  exact nofun

/-- The answer about a row that is recorded under the next number, if there is one. -/
def told? (number? : Option Int) (d : Int → Descriptor) : Except Failure Descriptor :=
  match number? with
  | none => .error .commitFailed
  | some id => .ok (d id)

/-- The answer of generation, step by step. -/
theorem fst_generate : (s.generate p now .succeeds r numbering).1 =
    (p.make s.logos now r).1 >>= fun made => s.checkThread r.thread >>= fun _ =>
      s.files.target (r.filename now) p.layout >>= fun l =>
        match r.thread with
        | none => .ok (unrecorded now r (r.filename now) l made.2)
        | some thread => expiry p.settings now >>= fun expires =>
          told? (s.number? numbering) fun id =>
            descriptorOf id now r thread (r.filename now) l made.2 expires := by
  by_cases hw : ∃ l b d, s.Writes p now r l b d
  · obtain ⟨l, b, d, hw⟩ := hw
    rw [generate_of_writes .succeeds numbering hw, hw.make, hw.thread, hw.target]
    cases r.thread with
    | none => rfl
    | some thread =>
      cases expiry p.settings now with
      | error e => rfl
      | ok expires =>
        cases s.number? numbering with
        | none => rfl
        | some id => exact descriptor_rowOf _ _ _ _ _ _ _ _ _
  · cases hmake : (p.make s.logos now r).1 with
    | error e => simp [generate, hmake, bind, Except.bind]
    | ok made =>
      cases hcheck : s.checkThread r.thread with
      | error e => simp [generate, hmake, hcheck, bind, Except.bind]
      | ok u =>
        cases htarget : s.files.target (r.filename now) p.layout with
        | error e => simp [generate, hmake, hcheck, keep, Files.write, afterMake, htarget, bind,
            Except.bind]
        | ok l => exact absurd ⟨l, made.1, made.2, hmake, hcheck, htarget⟩ hw

theorem breaks_told?_iff {number? : Option Int} {d : Int → Descriptor} :
    Breaks (told? number? d) ↔ number? = none := by
  cases number? with
  | none => exact iff_of_true ⟨.commitFailed, rfl, nofun⟩ rfl
  | some id => exact iff_of_false (not_breaks_ok _) nofun

theorem breaks_generate_iff : Breaks (s.generate p now .succeeds r numbering).1 ↔
    Breaks (p.make s.logos now r).1 ∨
      ∃ made, (p.make s.logos now r).1 = .ok made ∧ s.checkThread r.thread = .ok () ∧
        ((∀ l, s.files.target (r.filename now) p.layout ≠ .ok l) ∨
          ∃ l, s.files.target (r.filename now) p.layout = .ok l ∧ r.thread ≠ none ∧
            ((∀ x, expiry p.settings now ≠ .ok x) ∨
              (∃ x, expiry p.settings now = .ok x) ∧ s.number? numbering = none)) := by
  -- A thread that there is not is told, so that step never breaks.
  have hcheck := not_breaks_of_failsOnly (s.failsOnly_checkThread r.thread)
  rw [fst_generate, breaks_bind_iff]
  refine or_congr_right (exists_congr fun made => and_congr_right fun _ => ?_)
  rw [breaks_check_iff, or_iff_right hcheck]
  refine and_congr_right fun _ => ?_
  have htarget := breaks_iff (failsOnly_target s.files (r.filename now) p.layout)
  cases r.thread with
  | none => simp [breaks_bind_iff, htarget]
  | some thread =>
    simp [breaks_bind_iff, htarget, breaks_iff (failsOnly_expiry p.settings now),
      breaks_told?_iff]

end Store

namespace Service

/-- What stands in the way of an answer that is documented, under the standard settings. The branding of
the request cannot be read, or it or that of the settings is nested too deep; its logo cannot be loaded;
a text cannot be written into a Word document, the logo is no picture that one can hold, or the library
makes no bytes of it; the library makes no bytes of what was printed; the size is beyond the floating
point numbers; the file name leads to no place for a file; the document would expire after the last day
of the calendar; and no number is left for its row. -/
inductive Hindered (w : Service) (now : Instant) (s : Store) (r : Request) : Prop where
  | branding {fields : Named Json} (h : r.branding = some fields)
      (hread : ∀ p, BrandingPatch.read (Json.dropNulls (.object fields)) ≠ .ok p)
  | depth {fields : Named Json} (h : fields = [] ∨ r.branding = some fields)
      (hdeep : w.isShallow (.object fields) = false)
  | logo {b : Branding} (hb : (w.press {}).brandingOf r = .ok b) (hformat : r.format ≠ .md)
      (hlogo : ∀ l, (b.logo? w.toTools s.logos).1 ≠ .ok l)
  | text {b : Branding} {l : Option Logo} (hb : (w.press {}).brandingOf r = .ok b)
      (hformat : r.format = .docx) (hlogo : (b.logo? w.toTools s.logos).1 = .ok l)
      (htext : ¬ Word.IsWritable (segment r.content) b r.title r.metadata now)
  | picture {b : Branding} {l : Logo} (hb : (w.press {}).brandingOf r = .ok b)
      (hformat : r.format = .docx) (hlogo : (b.logo? w.toTools s.logos).1 = .ok (some l))
      (hheader : b.header.enabled = true) (hname : ∀ name, Logo.fileName l.bytes ≠ .ok name)
  | packing {b : Branding} {l : Option Logo} {d : Word.Document}
      (hb : (w.press {}).brandingOf r = .ok b) (hformat : r.format = .docx)
      (hlogo : (b.logo? w.toTools s.logos).1 = .ok l)
      (hd : Word.document (segment r.content) b r.title r.metadata l now = .ok d)
      (hpack : w.pack d l = none)
  | finishing {b : Branding} {l : Option Logo} {pages : Nat}
      (hb : (w.press {}).brandingOf r = .ok b) (hformat : r.format = .pdf)
      (hlogo : (b.logo? w.toTools s.logos).1 = .ok l) (hprinter : w.printer = .ready pages)
      (hfinish : w.finish (Page.job (segment r.content) b r.title l now)
        (Page.information r.title b (r.metadata.getD {})) pages = none)
  | size {b : Branding} {d : Rendering} (hb : (w.press {}).brandingOf r = .ok b)
      (hd : ((w.press {}).render s.logos now b r).1 = .ok d)
      (hsize : ∀ x, Size.megabytes d.bytes.size ≠ .ok x)
  | name {b : Branding} {d : Rendering} (hmake : ((w.press {}).make s.logos now r).1 = .ok (b, d))
      (hthread : s.checkThread r.thread = .ok ())
      (hname : ∀ l, s.files.target (r.filename now) w.layout ≠ .ok l)
  | expiry {b : Branding} {d : Rendering} {l : Location}
      (hwrites : s.Writes (w.press {}) now r l b d) (hthread : r.thread ≠ none)
      (hexpiry : now.addDays? 30 = none)
  | number {b : Branding} {d : Rendering} {l : Location}
      (hwrites : s.Writes (w.press {}) now r l b d) (hthread : r.thread ≠ none)
      (hexpiry : now.addDays? 30 ≠ none) (hnumber : s.number? (.keyed w.draw) = none)

section Answers
variable {w : Service} {now : Instant} {s : Store} {c : Call} {r : Request} {b : Branding}

theorem expiry_standard_iff :
    (∀ x, Store.expiry {} now ≠ .ok x) ↔ now.addDays? 30 = none := by
  have hdays : ({} : Settings).expirationDays.toNat = 30 := rfl
  rw [Store.expiry, if_neg (by decide), hdays]
  cases now.addDays? 30 <;> simp

theorem exists_expiry_standard_iff :
    (∃ x, Store.expiry {} now = .ok x) ↔ now.addDays? 30 ≠ none := by
  rw [Ne, ← expiry_standard_iff]
  simp

theorem hindered_of_brandingOf (h : ∀ b, (w.press {}).brandingOf r ≠ .ok b) :
    w.Hindered now s r := by
  have hnone := mt (Press.exists_brandingOf_iff (p := w.press {}) rfl rfl).2 fun ⟨b, hb⟩ => h b hb
  cases hempty : w.isShallow (.object []) with
  | false => exact .depth (Or.inl rfl) hempty
  | true =>
    simp only [not_and, not_forall] at hnone
    obtain ⟨fields, hfields, hnot⟩ := hnone hempty
    cases hdeep : w.isShallow (.object fields) with
    | false => exact .depth (Or.inr hfields) hdeep
    | true => exact .branding hfields fun q hq => hnot hdeep ⟨q, hq⟩

theorem hindered_of_render (hb : (w.press {}).brandingOf r = .ok b)
    (h : Breaks ((w.press {}).render s.logos now b r).1) : w.Hindered now s r := by
  rcases breaks_bind_iff.1 h with hlogo | ⟨l, hl, hcompose⟩
  · obtain ⟨hformat, hlogo⟩ := Press.breaks_logoFor_iff.1 hlogo
    exact .logo hb hformat hlogo
  · cases hformat : r.format with
    | md => exact absurd hcompose (Press.not_breaks_compose_md hformat)
    | pdf =>
      rw [hformat] at hl
      obtain ⟨pages, hprinter, hfinish⟩ := (Press.breaks_compose_pdf_iff hformat).1 hcompose
      exact .finishing hb hformat hl hprinter hfinish
    | docx =>
      rw [hformat] at hl
      rcases (Press.breaks_compose_docx_iff hformat).1 hcompose with hnone | ⟨d, hd, hpack⟩
      · by_cases htext : Word.IsWritable (segment r.content) b r.title r.metadata now
        · have hshown := mt Word.exists_document_iff_shown.2 (fun ⟨d, hd⟩ => hnone d hd)
          simp only [htext, true_and, not_forall] at hshown
          obtain ⟨hheader, -, hnamed⟩ := hshown
          simp only [Word.IsNamed, not_forall] at hnamed
          obtain ⟨k, rfl, hname⟩ := hnamed
          exact .picture hb hformat hl hheader fun name hn => hname ⟨name, hn⟩
        · exact .text hb hformat hl htext
      · exact .packing hb hformat hl hd hpack

theorem breaks_make_of_render (hb : (w.press {}).brandingOf r = .ok b)
    (h : Breaks ((w.press {}).render s.logos now b r).1) :
    Breaks ((w.press {}).make s.logos now r).1 :=
  (Press.breaks_make_iff (Press.checkFormat_standard r.format)).2 (Or.inr ⟨b, hb, Or.inl h⟩)

theorem breaks_make_of_compose {l : Option Logo} (hb : (w.press {}).brandingOf r = .ok b)
    (hformat : r.format ≠ .md) (hlogo : (b.logo? w.toTools s.logos).1 = .ok l)
    (h : Breaks ((w.press {}).compose now b r l)) :
    Breaks ((w.press {}).make s.logos now r).1 := by
  have hl : ((w.press {}).logoFor s.logos b r.format).1 = .ok l := by
    cases hf : r.format with
    | md => exact absurd hf hformat
    | docx | pdf => exact hlogo
  exact breaks_make_of_render hb (breaks_bind_iff.2 (Or.inr ⟨l, hl, h⟩))

theorem breaks_generate_standard_iff :
    Breaks (s.generate (w.press {}) now .succeeds r (.keyed w.draw)).1 ↔ w.Hindered now s r := by
  rw [Store.breaks_generate_iff]
  constructor
  · rintro (hmake | ⟨made, hmake, hthread, hname | ⟨l, htarget, hsome, hexpiry | ⟨hexpiry, hnumber⟩⟩⟩)
    · rcases (Press.breaks_make_iff (Press.checkFormat_standard r.format)).1 hmake with
        hbranding | ⟨b, hb, hrender | ⟨d, hd, hsize⟩⟩
      · exact hindered_of_brandingOf hbranding
      · exact hindered_of_render hb hrender
      · exact .size hb hd hsize
    · exact .name hmake hthread hname
    · exact .expiry ⟨hmake, hthread, htarget⟩ hsome (expiry_standard_iff.1 hexpiry)
    · exact .number ⟨hmake, hthread, htarget⟩ hsome (exists_expiry_standard_iff.1 hexpiry) hnumber
  · have hdocx : r.format = .docx → r.format ≠ .md := fun h => by simp [h]
    have hpdf : r.format = .pdf → r.format ≠ .md := fun h => by simp [h]
    have hbranding := Press.exists_brandingOf_iff (p := w.press {}) (r := r) rfl rfl
    have hmake : Breaks ((w.press {}).make s.logos now r).1 ↔ _ :=
      Press.breaks_make_iff (Press.checkFormat_standard r.format)
    intro h
    cases h with
    | branding h hread =>
      refine Or.inl (hmake.2 (Or.inl fun b hb => ?_))
      obtain ⟨-, hall⟩ := hbranding.1 ⟨b, hb⟩
      obtain ⟨-, q, hq⟩ := hall _ h
      exact hread q hq
    | depth h hdeep =>
      refine Or.inl (hmake.2 (Or.inl fun b hb => ?_))
      obtain ⟨hempty, hall⟩ := hbranding.1 ⟨b, hb⟩
      rcases h with rfl | h
      · exact Bool.false_ne_true (hdeep.symm.trans hempty)
      · exact Bool.false_ne_true (hdeep.symm.trans (hall _ h).1)
    | logo hb hformat hlogo =>
      refine Or.inl (breaks_make_of_render hb (breaks_bind_iff.2 (Or.inl ?_)))
      exact Press.breaks_logoFor_iff.2 ⟨hformat, hlogo⟩
    | text hb hformat hlogo htext =>
      refine Or.inl (breaks_make_of_compose hb (hdocx hformat) hlogo ?_)
      refine (Press.breaks_compose_docx_iff hformat).2 (Or.inl fun d hd => htext ?_)
      exact (Word.exists_document_iff_shown.1 ⟨d, hd⟩).1
    | picture hb hformat hlogo hheader hname =>
      refine Or.inl (breaks_make_of_compose hb (hdocx hformat) hlogo ?_)
      refine (Press.breaks_compose_docx_iff hformat).2 (Or.inl fun d hd => ?_)
      obtain ⟨-, hnamed⟩ := Word.exists_document_iff_shown.1 ⟨d, hd⟩
      obtain ⟨name, hn⟩ := hnamed hheader (Branding.enabled_of_logo? hlogo) _ rfl
      exact hname name hn
    | packing hb hformat hlogo hd hpack =>
      refine Or.inl (breaks_make_of_compose hb (hdocx hformat) hlogo ?_)
      exact (Press.breaks_compose_docx_iff hformat).2 (Or.inr ⟨_, hd, hpack⟩)
    | finishing hb hformat hlogo hprinter hfinish =>
      refine Or.inl (breaks_make_of_compose hb (hpdf hformat) hlogo ?_)
      exact (Press.breaks_compose_pdf_iff hformat).2 ⟨_, hprinter, hfinish⟩
    | size hb hd hsize => exact Or.inl (hmake.2 (Or.inr ⟨_, hb, Or.inr ⟨_, hd, hsize⟩⟩))
    | name hmade hthread hname => exact Or.inr ⟨_, hmade, hthread, Or.inl hname⟩
    | expiry hwrites hthread hexpiry =>
      exact Or.inr ⟨_, hwrites.make, hwrites.thread,
        Or.inr ⟨_, hwrites.target, hthread, Or.inl (expiry_standard_iff.2 hexpiry)⟩⟩
    | number hwrites hthread hexpiry hnumber =>
      exact Or.inr ⟨_, hwrites.make, hwrites.thread, Or.inr ⟨_, hwrites.target, hthread,
        Or.inr ⟨exists_expiry_standard_iff.2 hexpiry, hnumber⟩⟩⟩

theorem status_create (hc : c.Asks r w.levels)
    (hsettings : Settings.ofEnvironment w.environment .empty = .ok {}) :
    (∀ d, (s.generate (w.press {}) now .succeeds r (.keyed w.draw)).1 = .ok d →
        (w.create now s c).1.status = 200) ∧
      ∀ e, (s.generate (w.press {}) now .succeeds r (.keyed w.draw)).1 = .error e →
        (w.create now s c).1.status = (failed e).status := by
  rw [create_of_asks hc hsettings]
  obtain ⟨answer, t⟩ := s.generate (w.press {}) now .succeeds r (.keyed w.draw)
  constructor
  · rintro d rfl
    rfl
  · rintro e rfl
    rfl

/-- Under the standard settings every call that asks for a document is answered as documented, unless
something stands in the way; then the answer is broken. -/
theorem status_respond_iff (hc : c.Asks r w.levels)
    (hsettings : Settings.ofEnvironment w.environment .empty = .ok {}) :
    ((w.respond now s c).1.status ∈ [200, 400, 413, 503] ↔ ¬ w.Hindered now s r) ∧
      ((w.respond now s c).1.status = 500 ↔ w.Hindered now s r) := by
  have hpost : c.method ≠ "OPTIONS".toList := by
    rw [hc.method]
    decide +kernel
  have hstatus := (respond_of_not_options w now s hpost).1.status
  rw [answerCall_of_asks hc] at hstatus
  rw [hstatus, ← breaks_generate_standard_iff]
  obtain ⟨hmade, hfailed⟩ := status_create hc hsettings
  cases hgenerate : (s.generate (w.press {}) now .succeeds r (.keyed w.draw)).1 with
  | ok d =>
    rw [hmade d hgenerate]
    simp
  | error e =>
    rw [hfailed e hgenerate, breaks_error_iff, not_not]
    exact status_failed_iff e

end Answers

/-- Nothing stands in the way of notes in Markdown, and so they are made. -/
theorem status_respond_sampleCall :
    (respond {} sampleMoment (.ofThreads [sampleThread]) (sampleCall "Doc")).1.status = 200 ∧
      ¬ ({} : Service).Hindered sampleMoment (.ofThreads [sampleThread]) (sampleRequest "x") := by
  have hasks : (sampleCall "Doc").Asks (sampleRequest "x") none := ⟨rfl, rfl, _, rfl, rfl⟩
  have hstatus : (respond {} sampleMoment (.ofThreads [sampleThread])
      (sampleCall "Doc")).1.status = 200 := by
    decide +kernel
  exact ⟨hstatus, (status_respond_iff hasks rfl).1.1 (by simp [hstatus])⟩

def wordCall (title : Text) : Call :=
  { sampleCall "Doc" with payload := .json (.object [("title".toList, .text title),
      ("content".toList, .str "x"), ("format".toList, .str "docx"),
      ("threadId".toList, .text sampleThread)]) }

/-- A title that is too long for the properties of a Word document breaks the answer. -/
theorem status_respond_wordCall_long :
    (wordCall (List.replicate 256 'a')).Asks
        { sampleRequest "x" with title := List.replicate 256 'a', format := .docx } none ∧
      Settings.ofEnvironment ({} : Service).environment .empty = .ok {} ∧
      (respond {} sampleMoment (.ofThreads [sampleThread])
        (wordCall (List.replicate 256 'a'))).1.status = 500 :=
  ⟨⟨rfl, rfl, _, rfl, rfl⟩, rfl, by decide +kernel⟩

end Service
end Letterhead
