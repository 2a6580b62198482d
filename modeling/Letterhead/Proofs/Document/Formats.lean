import Letterhead.Proofs.Branding.Written
import Letterhead.Proofs.Text.Ascii
import Mathlib.Data.List.Induction

/-! Enabled formats. The environment lists formats between commas; each is enabled once, in the order in
which they are named first, and where none is named all are enabled. -/
namespace Letterhead.Settings

/-- A part of a list names a format in any case, with blanks around it. -/
def Names (part : Text) (f : Format) : Prop := Text.lower (Text.trim part) = f.name

instance (part : Text) (f : Format) : Decidable (Names part f) := inferInstanceAs (Decidable (_ = _))

theorem ofName?_eq_some_iff_names {part : Text} {f : Format} :
    Format.ofName? (Text.lower (Text.trim part)) = some f ↔ Names part f :=
  Format.ofName?_eq_some_iff

theorem Names.unique {part : Text} {f g : Format} (hf : Names part f) (hg : Names part g) :
    f = g := by
  rw [← ofName?_eq_some_iff_names] at hf hg
  exact Option.some.inj (hf.symm.trans hg)

def firstPlace (parts : List Text) (f : Format) : Nat := parts.findIdx fun p => Names p f

theorem firstPlace_lt_iff {parts : List Text} {f : Format} :
    firstPlace parts f < parts.length ↔ ∃ p ∈ parts, Names p f := by
  simp [firstPlace]

theorem firstPlace_concat (parts : List Text) (p : Text) (f : Format) :
    firstPlace (parts ++ [p]) f =
      if firstPlace parts f < parts.length then firstPlace parts f
      else parts.length + firstPlace [p] f := by
  rw [firstPlace, List.findIdx_append, firstPlace, firstPlace, Nat.add_comm]

/-- The formats of a list, each at the place of the first part that names it. -/
structure IsListing (parts : List Text) (fs : List Format) : Prop where
  mem_iff : ∀ f, f ∈ fs ↔ ∃ p ∈ parts, Names p f
  pairwise : fs.Pairwise fun f g => firstPlace parts f < firstPlace parts g

theorem IsListing.nodup {parts : List Text} {fs : List Format} (h : IsListing parts fs) :
    fs.Nodup :=
  h.pairwise.imp fun hlt he => absurd hlt (by rw [he]; exact Nat.lt_irrefl _)

/-- The parts leave no choice of the list. -/
theorem IsListing.unique {parts : List Text} {fs gs : List Format} (hf : IsListing parts fs)
    (hg : IsListing parts gs) : fs = gs := by
  refine List.Perm.eq_of_pairwise (fun f g _ _ hfg hgf => ?_) hf.pairwise hg.pairwise ?_
  · exact absurd hfg (Nat.lt_asymm hgf)
  · rw [List.perm_ext_iff_of_nodup hf.nodup hg.nodup]
    exact fun f => (hf.mem_iff f).trans (hg.mem_iff f).symm

def addNamed (fs : List Format) (part : Text) : List Format :=
  match Format.ofName? (Text.lower (Text.trim part)) with
  | some f => addFormat fs f
  | none => fs

theorem IsListing.concat {parts : List Text} {fs : List Format} (h : IsListing parts fs)
    (p : Text) : IsListing (parts ++ [p]) (addNamed fs p) := by
  have hmem : ∀ f, (∃ q ∈ parts ++ [p], Names q f) ↔ f ∈ fs ∨ Names p f := by
    simp [h.mem_iff, or_and_right, exists_or]
  have hplace : ∀ f ∈ fs, firstPlace (parts ++ [p]) f = firstPlace parts f := fun f hf => by
    rw [firstPlace_concat, if_pos (firstPlace_lt_iff.2 ((h.mem_iff f).1 hf))]
  have hkept : fs.Pairwise fun f g =>
      firstPlace (parts ++ [p]) f < firstPlace (parts ++ [p]) g :=
    h.pairwise.imp_of_mem fun hf hg hlt => by rwa [hplace _ hf, hplace _ hg]
  unfold addNamed
  cases hp : Format.ofName? (Text.lower (Text.trim p)) with
  | none =>
    have hnone : ∀ f, ¬ Names p f := fun f hf => by
      rw [ofName?_eq_some_iff_names.2 hf] at hp
      cases hp
    exact ⟨fun f => by rw [hmem, or_iff_left (hnone f)], hkept⟩
  | some f =>
    have hnames : ∀ g, Names p g ↔ g = f := fun g =>
      ⟨fun hg => hg.unique (ofName?_eq_some_iff_names.1 hp),
        fun hg => hg ▸ ofName?_eq_some_iff_names.1 hp⟩
    simp only [addFormat, List.contains_iff_mem]
    by_cases hf : f ∈ fs
    · rw [if_pos hf]
      refine ⟨fun g => ?_, hkept⟩
      rw [hmem, hnames]
      exact ⟨Or.inl, fun hg => hg.elim id fun he => he ▸ hf⟩
    · rw [if_neg hf]
      refine ⟨fun g => by rw [hmem, hnames, List.mem_append, List.mem_singleton], ?_⟩
      -- The new format has its first place behind all parts that came before.
      have hlate : parts.length ≤ firstPlace (parts ++ [p]) f := by
        rw [firstPlace_concat, if_neg fun hlt => hf ((h.mem_iff f).2 (firstPlace_lt_iff.1 hlt))]
        exact Nat.le_add_right _ _
      refine List.pairwise_append.2 ⟨hkept, List.pairwise_singleton _ _, fun g hg k hk => ?_⟩
      rw [List.mem_singleton.1 hk, hplace g hg]
      exact (firstPlace_lt_iff.2 ((h.mem_iff g).1 hg)).trans_le hlate

theorem isListing_formatsOf (t : Text) : IsListing (t.splitOn ',') (formatsOf t) := by
  change IsListing (t.splitOn ',') ((t.splitOn ',').foldl addNamed [])
  induction t.splitOn ',' using List.reverseRecOn with
  | nil => exact ⟨by simp, .nil⟩
  | append_singleton parts p ih =>
    rw [List.foldl_concat]
    exact ih.concat p

def formatParts (env : Named Text) : List Text :=
  (valueOf env "DOCGEN_ENABLED_FORMATS" "pdf,docx,md").splitOn ','

def enabledBy (env : Named Text) : List Format :=
  let named := formatsOf (valueOf env "DOCGEN_ENABLED_FORMATS" "pdf,docx,md")
  if named.isEmpty then Format.all else named

theorem enabledBy_of_forall_not {env : Named Text}
    (h : ∀ f, ∀ p ∈ formatParts env, ¬ Names p f) : enabledBy env = Format.all := by
  have hlist := isListing_formatsOf (valueOf env "DOCGEN_ENABLED_FORMATS" "pdf,docx,md")
  have hnil : formatsOf (valueOf env "DOCGEN_ENABLED_FORMATS" "pdf,docx,md") = [] :=
    List.eq_nil_iff_forall_not_mem.2 fun f hf => by
      obtain ⟨p, hp, hname⟩ := (hlist.mem_iff f).1 hf
      exact h f p hp hname
  rw [enabledBy, hnil]
  rfl

theorem isListing_enabledBy {env : Named Text} (h : ∃ f, ∃ p ∈ formatParts env, Names p f) :
    IsListing (formatParts env) (enabledBy env) ∧ enabledBy env ≠ [] := by
  have hlist := isListing_formatsOf (valueOf env "DOCGEN_ENABLED_FORMATS" "pdf,docx,md")
  have hne : formatsOf (valueOf env "DOCGEN_ENABLED_FORMATS" "pdf,docx,md") ≠ [] := by
    obtain ⟨f, hf⟩ := h
    exact List.ne_nil_of_mem ((hlist.mem_iff f).2 hf)
  rw [enabledBy, if_neg (by simpa using hne)]
  exact ⟨hlist, hne⟩

theorem read_names (fs : List Format) :
    Form.list Format.read (.array (fs.map fun f => .text f.name)) = .ok fs := by
  have hall : ∀ n, Checked.allFrom n ((fs.map fun f => Json.text f.name).map Format.read) =
      .ok fs := by
    induction fs with
    | nil => exact fun _ => rfl
    | cons f fs ih =>
      intro n
      have hread : Format.read (.text f.name) = .ok f := by
        rw [Format.read, Format.ofName?_name]
      rw [List.map_cons, List.map_cons, Checked.allFrom, hread, ih]
      rfl
  exact hall 0

def IsLimit (x : Binary64) : Prop :=
  x ≠ .nan ∧ (Binary64.ofInt 100).lt x = false ∧ x.lt (.ofInt 1) = false

instance (x : Binary64) : Decidable (IsLimit x) := inferInstanceAs (Decidable (_ ∧ _))

theorem intWithin_ok_iff {low high n m : Int} :
    Form.intWithin low high n = .ok m ↔ (low ≤ n ∧ n ≤ high) ∧ m = n := by
  unfold Form.intWithin Checked.fault
  split
  · simp; omega
  · split
    · simp; omega
    · simp only [Checked.ok.injEq]
      omega

theorem limit_ok_iff {x y : Binary64} :
    Form.floatWithin (.ofInt 1) (.ofInt 100) x = .ok y ↔ IsLimit x ∧ y = x := by
  unfold Form.floatWithin Checked.fault IsLimit
  by_cases hnan : x = .nan <;> cases hhigh : (Binary64.ofInt 100).lt x <;>
    cases hlow : x.lt (.ofInt 1) <;> simp [hnan, eq_comm]

theorem read_text_ok_iff {t : Text} {f : Format} : Format.read (.text t) = .ok f ↔ t = f.name := by
  rw [← Format.ofName?_eq_some_iff, Format.read]
  cases Format.ofName? t <;> simp [Checked.fault]

/-- Settings that were put together are read as they are, if each of them is within its bounds. -/
theorem read_written_ok_iff {standard : Text} {fs : List Format} {days : Int} {size : Binary64}
    {branding : Named Json} {s : Settings} :
    read (.object (written standard (fs.map fun f => .text f.name) days size branding)) = .ok s ↔
      (0 ≤ days ∧ days ≤ 365) ∧ IsLimit size ∧ ∃ f : Format, standard = f.name ∧
        s = { defaultFormat := f, formats := fs, branding := branding, expirationDays := days,
              maxMegabytes := size } := by
  generalize hfields : written standard (fs.map fun f => .text f.name) days size branding = fields
  have hfield : ∀ {α : Type} (name : String) (rd : Reader α) (v : Json),
      fields.lookup name.toList = some v →
        Form.field [name] fields rd = Checked.under (.field name.toList) (some <$> rd v) := by
    intro α name rd v hv
    simp [Form.field, Json.firstField?, hv]
  subst hfields
  have hdays : (Form.int (.int days)).andThen (Form.intWithin 0 365) =
      Form.intWithin 0 365 days := rfl
  have hsize : (Form.float (.float size)).andThen (Form.floatWithin (.ofInt 1) (.ofInt 100)) =
      Form.floatWithin (.ofInt 1) (.ofInt 100) size := rfl
  have hbranding : Form.object (.object branding) = .ok branding := rfl
  have habsent : Form.field ["enabled"]
    (written standard (fs.map fun f => .text f.name) days size branding) Form.bool = .ok none := rfl
  simp only [read, Form.record, habsent, hfield "default_format" _ _ rfl,
    hfield "enabled_formats" _ _ rfl, hfield "branding" _ _ rfl, hfield "expiration_days" _ _ rfl,
    hfield "max_document_size_mb" _ _ rfl, hdays, hsize, hbranding, read_names,
    Checked.seq_ok_iff, Checked.map_ok_iff, Checked.under_ok_iff, read_text_ok_iff,
    intWithin_ok_iff, limit_ok_iff, Checked.ok.injEq]
  constructor
  · rintro ⟨-, -, ⟨-, -, ⟨-, -, ⟨-, -, ⟨-, -, ⟨-, ⟨_, rfl, rfl⟩, rfl⟩, ⟨_, ⟨f, hf, rfl⟩, rfl⟩, rfl⟩,
      ⟨_, ⟨_, rfl, rfl⟩, rfl⟩, rfl⟩, ⟨_, ⟨_, rfl, rfl⟩, rfl⟩, rfl⟩, ⟨_, ⟨_, ⟨hd, rfl⟩, rfl⟩, rfl⟩, rfl⟩,
      ⟨_, ⟨_, ⟨hs, rfl⟩, rfl⟩, rfl⟩, rfl⟩
    exact ⟨hd, hs, f, hf, rfl⟩
  · rintro ⟨hd, hs, f, hf, rfl⟩
    exact ⟨_, _, ⟨_, _, ⟨_, _, ⟨_, _, ⟨_, _, ⟨_, ⟨_, rfl, rfl⟩, rfl⟩, ⟨_, ⟨f, hf, rfl⟩, rfl⟩, rfl⟩,
      ⟨_, ⟨_, rfl, rfl⟩, rfl⟩, rfl⟩, ⟨_, ⟨_, rfl, rfl⟩, rfl⟩, rfl⟩, ⟨_, ⟨_, ⟨hd, rfl⟩, rfl⟩, rfl⟩, rfl⟩,
      ⟨_, ⟨_, ⟨hs, rfl⟩, rfl⟩, rfl⟩, rfl⟩

/-- The settings of an environment other than the formats are such as can be read. -/
structure OthersValid (env : Named Text) (branding : BrandingLayer) : Prop where
  standard : ∃ f : Format,
    orElse "pdf".toList (Text.lower (Text.trim (valueOf env "DOCGEN_DEFAULT_FORMAT" "pdf"))) = f.name
  days : ∃ n, Numeral.whole (valueOf env "DOCGEN_EXPIRATION_DAYS" "30") = .ok n ∧ 0 ≤ n ∧ n ≤ 365
  size : ∃ x, Numeral.real (valueOf env "DOCGEN_MAX_SIZE_MB" "50") = .ok x ∧ IsLimit x
  branding : ∃ fields, brandingValue branding = .object fields

/-- No list of formats makes the settings fail. -/
theorem exists_ofEnvironment {env : Named Text} {branding : BrandingLayer}
    (h : OthersValid env branding) :
    ∃ s, ofEnvironment env branding = .ok s ∧ s.formats = enabledBy env := by
  obtain ⟨⟨f, hstandard⟩, ⟨days, hdays, hbounds⟩, ⟨size, hsize, hlimit⟩, fields, hbranding⟩ := h
  let s : Settings :=
    { defaultFormat := f, formats := enabledBy env, branding := fields, expirationDays := days,
      maxMegabytes := size }
  have hread := read_written_ok_iff (s := s).2 ⟨hbounds, hlimit, f, hstandard, rfl⟩
  refine ⟨s, ?_, rfl⟩
  simp only [ofEnvironment, hdays, hsize, hbranding, bind, Except.bind]
  split
  · next t ht => exact congrArg Except.ok (Checked.ok.inj (ht.symm.trans hread))
  · next fs hfs => cases hfs.symm.trans hread

def IsCasing (name t : Text) : Prop := List.Forall₂ (fun c d => d = c ∨ d = c.toUpper) name t

instance (name t : Text) : Decidable (IsCasing name t) :=
  inferInstanceAs (Decidable (List.Forall₂ _ _ _))

theorem lower_of_isCasing {f : Format} {t : Text} (h : IsCasing f.name t) :
    Text.lower t = f.name := by
  have hletter : ∀ {c d : Char}, lowerOf c = [c] ∧ lowerOf c.toUpper = [c] →
      (d = c ∨ d = c.toUpper) → lowerOf d = [c] := by
    rintro c d ⟨hc, hupper⟩ (rfl | rfl)
    · exact hc
    · exact hupper
  have hname : ∀ c ∈ f.name, lowerOf c = [c] ∧ lowerOf c.toUpper = [c] := by
    have hall : (f.name.all fun c => lowerOf c = [c] ∧ lowerOf c.toUpper = [c]) = true := by
      cases f <;> decide
    simpa only [List.all_eq_true, decide_eq_true_eq] using hall
  generalize f.name = name at h hname
  induction h with
  | nil => rfl
  | @cons c d name t hd ht ih =>
    obtain ⟨hc, hname⟩ := List.forall_mem_cons.1 hname
    rw [Text.lower, List.flatMap_cons, hletter hc hd]
    exact congrArg (c :: ·) (ih hname)

theorem allows_iff {s : Settings} {name : Text} :
    s.allows name = true ↔ ∃ f ∈ s.formats, Text.lower name = f.name := by
  rw [allows, List.any_eq_true]
  simp only [beq_iff_eq, eq_comm (a := Text.lower name)]

theorem allows_iff_mem {s : Settings} {f : Format} {name : Text} (h : Text.lower name = f.name) :
    s.allows name = true ↔ f ∈ s.formats := by
  rw [allows_iff]
  constructor
  · rintro ⟨g, hg, hname⟩
    have hsame : Format.ofName? f.name = some g := Format.ofName?_eq_some_iff.2 (h.symm.trans hname)
    rw [Format.ofName?_name] at hsame
    exact Option.some.inj hsame ▸ hg
  · exact fun hf => ⟨f, hf, h⟩

/-- Whatever list of formats the environment has, it enables some formats and none twice: those that a
part of the list names, in the order of the first such parts, and all where no part names one. A format is
allowed by its name in any case if it is enabled, and nothing else is. -/
theorem formats_of_environment {env : Named Text} {branding : BrandingLayer}
    (h : OthersValid env branding) :
    ∃ s, ofEnvironment env branding = .ok s ∧ s.formats ≠ [] ∧ s.formats.Nodup ∧
      ((∃ f, ∃ p ∈ formatParts env, Names p f) → IsListing (formatParts env) s.formats) ∧
      ((∀ f, ∀ p ∈ formatParts env, ¬ Names p f) → s.formats = Format.all) ∧
      (∀ name, s.allows name = true ↔ ∃ f ∈ s.formats, Text.lower name = f.name) ∧
      ∀ f name, IsCasing f.name name → (s.allows name = true ↔ f ∈ s.formats) := by
  obtain ⟨s, hs, hformats⟩ := exists_ofEnvironment h
  have hallows : ∀ f name, IsCasing f.name name → (s.allows name = true ↔ f ∈ s.formats) :=
    fun f name hname => allows_iff_mem (lower_of_isCasing hname)
  by_cases hnamed : ∃ f, ∃ p ∈ formatParts env, Names p f
  · obtain ⟨hlist, hne⟩ := isListing_enabledBy hnamed
    rw [← hformats] at hlist hne
    refine ⟨s, hs, hne, hlist.nodup, fun _ => hlist, fun hnone => ?_, fun _ => allows_iff, hallows⟩
    obtain ⟨f, p, hp, hname⟩ := hnamed
    exact absurd hname (hnone f p hp)
  · have hnone : ∀ f, ∀ p ∈ formatParts env, ¬ Names p f :=
      fun f p hp hname => hnamed ⟨f, p, hp, hname⟩
    have hall := hformats.trans (enabledBy_of_forall_not hnone)
    refine ⟨s, hs, ?_, ?_, fun hsome => absurd hsome hnamed, fun _ => hall, fun _ => allows_iff,
      hallows⟩
    · rw [hall]
      decide
    · rw [hall]
      decide

def looseEnvironment : Named Text :=
  [("DOCGEN_ENABLED_FORMATS".toList, "doc,, Md ,\u2003PDF,md".toList),
    ("DOCGEN_MAX_SIZE_MB".toList, " 1_0.5".toList)]

/-- Markdown comes first, since it is named first, and Word documents are not enabled. -/
theorem formats_of_environment_looseEnvironment :
    OthersValid looseEnvironment .empty ∧ IsCasing Format.pdf.name "pDf".toList ∧
      ∃ s, ofEnvironment looseEnvironment .empty = .ok s ∧ s.formats = [.md, .pdf] ∧
        s.allows "pDf".toList = true ∧ s.allows "DOCX".toList = false := by
  have hvalid : OthersValid looseEnvironment .empty :=
    ⟨⟨.pdf, by decide⟩, ⟨30, by decide⟩, ⟨_, rfl, by decide⟩, ⟨[], rfl⟩⟩
  have hcasing : IsCasing Format.pdf.name "pDf".toList := by decide
  have hnamed : ∃ f, ∃ p ∈ formatParts looseEnvironment, Names p f :=
    ⟨.md, " Md ".toList, by decide, by decide⟩
  have hloose : IsListing (formatParts looseEnvironment) [.md, .pdf] :=
    ⟨fun f => by cases f <;> decide, by decide⟩
  obtain ⟨s, hs, -, -, hlist, -, hname, hallows⟩ := formats_of_environment hvalid
  have hformats : s.formats = [.md, .pdf] := (hlist hnamed).unique hloose
  refine ⟨hvalid, hcasing, s, hs, hformats, (hallows .pdf _ hcasing).2 (by simp [hformats]), ?_⟩
  rw [Bool.eq_false_iff, ne_eq, hname, hformats]
  decide

end Letterhead.Settings
