import Letterhead.Proofs.Branding.Written

/-! A layer in its forms: as it was written, as it was read, as the settings hold what was read, and as
it was written with nulls for what it does not give. In each of them it gives the same settings. -/
namespace Letterhead

section Dropping
variable {α : Type} {names : List String} {fields : Named Json} {read : Reader α} {v : Json}

theorem Json.given?_of_lookup {name : String} (h : fields.lookup name.toList = some v)
    (hv : v.isNull = false) : Json.given? name fields = some v := by
  induction fields with
  | nil => cases h
  | cons f fields ih =>
    rw [List.lookup_cons] at h
    by_cases hname : f.1 = name.toList
    · rw [hname, beq_self_eq_true] at h
      obtain rfl := Option.some.inj h
      rw [Json.given?, List.find?_cons_of_pos (by simp [hname, hv]), Option.map_some]
    · rw [beq_eq_false_iff_ne.2 (Ne.symm hname)] at h
      rw [Json.given?, List.find?_cons_of_neg (by simp [hname])]
      exact ih h

theorem Json.given?_of_lookup_eq_none {name : String} (h : fields.lookup name.toList = none) :
    Json.given? name fields = none := by
  rw [List.lookup_eq_none_iff] at h
  rw [Json.given?, List.find?_eq_none.2, Option.map_none]
  intro f hf
  have hne : f.1 ≠ name.toList := fun he => bne_iff_ne.1 (h f hf) he.symm
  simp [hne]

/-- Of names that are looked up, the first one that is there gives its value, unless that is null. -/
theorem Json.firstGiven?_of_under? {o : Option Json} (h : Json.under? names fields = o)
    (hv : ∀ v, o = some v → v.isNull = false) : Json.firstGiven? names fields = o := by
  induction names with
  | nil => exact h
  | cons name names ih =>
    rw [Json.under?_cons] at h
    rw [Json.firstGiven?, List.findSome?_cons]
    cases hname : fields.lookup name.toList with
    | some v =>
      rw [hname, Option.some_or] at h
      subst h
      rw [Json.given?_of_lookup hname (hv v rfl)]
    | none =>
      rw [hname, Option.none_or] at h
      rw [Json.given?_of_lookup_eq_none hname]
      exact ih h

theorem exists_field_dropNullFields {o : Option α} (h : Form.field names fields read = .ok o)
    (hread : ∀ v a, read v = .ok a → v.isNull = false ∧ ∃ b, read v.dropNulls = .ok b) :
    ∃ o', Form.field names (Json.dropNullFields fields) read = .ok o' := by
  simp only [Form.field_ok_iff, Json.under?_dropNullFields] at h ⊢
  cases hunder : Json.under? names fields with
  | none =>
    rw [Json.firstGiven?_of_under? hunder (fun v hv => by cases hv)]
    exact ⟨none, .none⟩
  | some v =>
    -- The value was read, so it is no null, and no earlier name has one either.
    rw [hunder] at h
    cases h with
    | @some _ a ha =>
      obtain ⟨hnull, b, hb⟩ := hread v a ha
      rw [Json.firstGiven?_of_under? hunder (fun w hw => Option.some.inj hw ▸ hnull)]
      exact ⟨some b, .some hb⟩

theorem exists_field_of_total (hread : ∀ v, ∃ a, read v = .ok a) (names : List String)
    (fields : Named Json) : ∃ o, Form.field names fields read = .ok o := by
  simp only [Form.field_ok_iff]
  cases Json.under? names fields with
  | none => exact ⟨none, .none⟩
  | some v =>
    obtain ⟨a, ha⟩ := hread v
    exact ⟨some a, .some ha⟩

theorem bool_dropNulls {v : Json} {b : Bool} (h : Form.bool v = .ok b) :
    v.isNull = false ∧ ∃ c, Form.bool v.dropNulls = .ok c := by
  cases v with
  | null | array _ | object _ => cases h
  | bool _ | int _ | float _ | text _ =>
    refine ⟨rfl, b, ?_⟩
    rw [Json.dropNulls]
    · exact h
    · simp

theorem text_dropNulls {v : Json} {t : Text} (h : Form.text v = .ok t) :
    v.isNull = false ∧ ∃ u, Form.text v.dropNulls = .ok u := by
  cases v with
  | text u =>
    rw [(Json.dropNulls_plain.2 u).2]
    exact ⟨rfl, u, rfl⟩
  | _ => cases h

theorem HeaderPatch.read_dropNulls {v : Json} {p : HeaderPatch} (h : HeaderPatch.read v = .ok p) :
    v.isNull = false ∧ ∃ q, HeaderPatch.read v.dropNulls = .ok q := by
  obtain ⟨fields, rfl, henabled, hcontent⟩ := HeaderPatch.fields_of_read h
  obtain ⟨enabled, henabled'⟩ := exists_field_dropNullFields henabled fun _ _ => bool_dropNulls
  obtain ⟨content, hcontent'⟩ := exists_field_dropNullFields hcontent fun _ _ => text_dropNulls
  refine ⟨rfl, ⟨enabled, content⟩, ?_⟩
  rw [Json.dropNulls]
  simp only [HeaderPatch.read, Form.record, henabled', hcontent']
  rfl

theorem FooterPatch.read_dropNulls {v : Json} {p : FooterPatch} (h : FooterPatch.read v = .ok p) :
    v.isNull = false ∧ ∃ q, FooterPatch.read v.dropNulls = .ok q := by
  obtain ⟨fields, rfl, henabled, hcontent, hnumber⟩ := FooterPatch.fields_of_read h
  obtain ⟨enabled, henabled'⟩ := exists_field_dropNullFields henabled fun _ _ => bool_dropNulls
  obtain ⟨content, hcontent'⟩ := exists_field_dropNullFields hcontent fun _ _ => text_dropNulls
  obtain ⟨number, hnumber'⟩ := exists_field_dropNullFields hnumber fun _ _ => bool_dropNulls
  refine ⟨rfl, ⟨enabled, content, number⟩, ?_⟩
  rw [Json.dropNulls]
  simp only [FooterPatch.read, Form.record, henabled', hcontent', hnumber']
  rfl

/-- What can be read as it was written can be read without its nulls. -/
theorem BrandingPatch.exists_read_dropNulls {p : BrandingPatch}
    (h : BrandingPatch.read (.object fields) = .ok p) :
    ∃ q, BrandingPatch.read (Json.dropNulls (.object fields)) = .ok q := by
  obtain ⟨henabled, -, -, -, -, hheader, hfooter⟩ := BrandingPatch.read_object_ok_iff.1 h
  obtain ⟨enabled, henabled⟩ := exists_field_dropNullFields henabled fun _ _ => bool_dropNulls
  obtain ⟨header, hheader⟩ :=
    exists_field_dropNullFields hheader fun _ _ => HeaderPatch.read_dropNulls
  obtain ⟨footer, hfooter⟩ :=
    exists_field_dropNullFields hfooter fun _ _ => FooterPatch.read_dropNulls
  -- Labels, colours and fonts may now stand under a later name, but any value can be read as one.
  have hlabel : ∀ v, ∃ t, Form.label v = .ok t := fun v => by cases v <;> exact ⟨_, rfl⟩
  obtain ⟨logo, hlogo⟩ := exists_field_of_total hlabel _ (Json.dropNullFields fields)
  obtain ⟨organization, horganization⟩ :=
    exists_field_of_total hlabel _ (Json.dropNullFields fields)
  obtain ⟨primary, hprimary⟩ :=
    exists_field_of_total (fun v => ⟨_, rfl⟩) _ (Json.dropNullFields fields)
  obtain ⟨font, hfont⟩ := exists_field_of_total (fun v => ⟨_, rfl⟩) _ (Json.dropNullFields fields)
  rw [Json.dropNulls]
  exact ⟨⟨enabled, logo, organization, primary, font, header, footer⟩,
    BrandingPatch.read_object_ok_iff.2
      ⟨henabled, hlogo, horganization, hprimary, hfont, hheader, hfooter⟩⟩

end Dropping

namespace Json

/-- Fields with nulls under further names between them. -/
inductive Nulled : Named Json → Named Json → Prop where
  | nil : Nulled [] []
  | keep {fields more : Named Json} (f : Text × Json) (h : Nulled fields more) :
      Nulled (f :: fields) (f :: more)
  | null {fields more : Named Json} (name : Text) (h : Nulled fields more) :
      Nulled fields ((name, .null) :: more)

theorem Nulled.dropNullFields_eq {fields more : Named Json} (h : Nulled fields more) :
    dropNullFields more = dropNullFields fields := by
  induction h with
  | nil => rfl
  | keep f _ ih => rw [dropNullFields, ih, dropNullFields]
  | null name _ ih => rw [dropNullFields, ih, dropNullField, List.nil_append]

end Json

namespace BrandingLayer

def sections : List String := ["header", "footer"]

/-- The fields of a branding with nulls added to them: under further names, within an object, and in a
section that is not there otherwise. -/
inductive Padded : Named Json → Named Json → Prop where
  | nil : Padded [] []
  | keep {fields more : Named Json} (f : Text × Json) (h : Padded fields more) :
      Padded (f :: fields) (f :: more)
  | null {fields more : Named Json} (name : Text) (h : Padded fields more) :
      Padded fields ((name, .null) :: more)
  | inner {fields more part nulled : Named Json} (name : Text) (hpart : Json.Nulled part nulled)
      (h : Padded fields more) :
      Padded ((name, .object part) :: fields) ((name, .object nulled) :: more)
  | added {fields more nulls : Named Json} {name : String} (hname : name ∈ sections)
      (hnew : fields.lookup name.toList = none) (hnulls : Json.Nulled [] nulls)
      (h : Padded fields more) : Padded fields ((name.toList, .object nulls) :: more)

section Padding
variable {fields more : Named Json}

/-- Two lists of fields have the same value under a name, but for a section that is empty in the second
and absent in the first. -/
def Matches (name : String) (fields more : Named Json) : Prop :=
  more.lookup name.toList = fields.lookup name.toList ∨
    name ∈ sections ∧ fields.lookup name.toList = none ∧
      more.lookup name.toList = some (.object [])

theorem Matches.append_left {name : String} (h : Matches name fields more) (front : Named Json) :
    Matches name (front ++ fields) (front ++ more) := by
  simp only [Matches, List.lookup_append]
  cases front.lookup name.toList with
  | none =>
    simp only [Option.none_or]
    exact h
  | some v => exact .inl rfl

/-- Nulls that are added leave nothing behind but empty sections. -/
theorem Padded.matches (h : Padded fields more) (name : String) :
    Matches name (Json.dropNullFields fields) (Json.dropNullFields more) := by
  induction h with
  | nil => exact .inl rfl
  | keep f _ ih =>
    rw [Json.dropNullFields, Json.dropNullFields]
    exact ih.append_left _
  | null n _ ih =>
    rw [Json.dropNullFields, Json.dropNullField, List.nil_append]
    exact ih
  | inner n hpart _ ih =>
    rw [Json.dropNullFields, Json.dropNullFields, Json.dropNullField_of_not_isNull rfl,
      Json.dropNullField_of_not_isNull rfl, Json.dropNulls, Json.dropNulls,
      hpart.dropNullFields_eq]
    exact ih.append_left _
  | @added fields more nulls part hname hnew hnulls _ ih =>
    -- Of the new section an object without fields is left, under a name that had no value.
    rw [Json.dropNullFields, Json.dropNullField_of_not_isNull rfl, Json.dropNulls,
      hnulls.dropNullFields_eq, Json.dropNullFields_nil, List.singleton_append]
    by_cases hpart : name = part
    · subst hpart
      have hnone : (Json.dropNullFields fields).lookup name.toList = none := by
        rw [Json.lookup_dropNullFields, Json.given?_of_lookup_eq_none hnew, Option.map_none]
      exact .inr ⟨hname, hnone, List.lookup_cons_self⟩
    · have hne : (name.toList == part.toList) = false :=
        beq_eq_false_iff_ne.2 fun he => hpart (String.toList_inj.1 he)
      simpa only [Matches, List.lookup_cons, hne] using ih

theorem under?_of_matches {names : List String} (h : ∀ name, Matches name fields more)
    (hnames : ∀ name ∈ names, name ∉ sections) :
    Json.under? names more = Json.under? names fields := by
  induction names with
  | nil => rfl
  | cons name names ih =>
    obtain ⟨hname, hnames⟩ := List.forall_mem_cons.1 hnames
    have hsame := (h name).resolve_right fun hsection => hname hsection.1
    rw [Json.under?_cons, Json.under?_cons, hsame, ih hnames]

theorem field_of_matches {α : Type} {names : List String} {read : Reader α} {o : Option α}
    (h : ∀ name, Matches name fields more) (hnames : ∀ name ∈ names, name ∉ sections)
    (hfield : Form.field names fields read = .ok o) : Form.field names more read = .ok o := by
  rw [Form.field_ok_iff, under?_of_matches h hnames]
  exact Form.field_ok_iff.1 hfield

/-- An empty section is read as one that gives nothing. -/
theorem section_of_matches {α : Type} {name : String} {read : Reader α} {o : Option α}
    (h : Matches name fields more) (bare : α) (hbare : read (.object []) = .ok bare)
    (hfield : Form.field [name] fields read = .ok o) :
    ∃ o', Form.field [name] more read = .ok o' ∧ o'.getD bare = o.getD bare := by
  simp only [Form.field_ok_iff, Json.under?_cons, Json.under?_nil, Option.or_none] at hfield ⊢
  rcases h with hsame | ⟨-, hnone, hempty⟩
  · exact ⟨o, hsame ▸ hfield, rfl⟩
  · rw [hnone] at hfield
    rw [hempty]
    cases hfield
    exact ⟨some bare, .some hbare, rfl⟩

theorem exists_read_of_matches {p : BrandingPatch} (h : ∀ name, Matches name fields more)
    (hread : BrandingPatch.read (.object fields) = .ok p) :
    ∃ q, BrandingPatch.read (.object more) = .ok q ∧ ∀ b, q.apply b = p.apply b := by
  rw [BrandingPatch.read_object_ok_iff] at hread
  obtain ⟨henabled, hlogo, horganization, hprimary, hfont, hheader, hfooter⟩ := hread
  obtain ⟨header, hheader', hsame⟩ := section_of_matches (h "header") {} rfl hheader
  obtain ⟨footer, hfooter', hsame'⟩ := section_of_matches (h "footer") {} rfl hfooter
  refine ⟨{ p with header, footer }, BrandingPatch.read_object_ok_iff.2
    ⟨field_of_matches h (by decide) henabled, field_of_matches h (by decide) hlogo,
      field_of_matches h (by decide) horganization, field_of_matches h (by decide) hprimary,
      field_of_matches h (by decide) hfont, hheader', hfooter'⟩, fun b => ?_⟩
  simp only [BrandingPatch.apply, hsame, hsame']

end Padding

/-- The forms of a layer that was written as an object and is read as a patch: the object itself, the
patch, the branding of the settings that are made of the patch, and the object with nulls added. -/
inductive IsFormOf (fields : Named Json) (p : BrandingPatch) : BrandingLayer → Prop where
  | written : IsFormOf fields p (.raw (.object fields))
  | read : IsFormOf fields p (.patch p)
  | stored {env : Named Text} {settings : Settings}
      (h : Settings.ofEnvironment env (.patch p) = .ok settings) :
      IsFormOf fields p (.raw (.object settings.branding))
  | padded {more : Named Json} (h : Padded fields more) : IsFormOf fields p (.raw (.object more))

section Forms
variable {fields : Named Json} {p : BrandingPatch} {l : BrandingLayer}

theorem toPatch_of_read (h : BrandingPatch.read (Json.dropNulls (.object fields)) = .ok p) :
    (raw (.object fields)).toPatch = .ok p := by
  simp only [toPatch, h]

/-- In each of its forms a layer changes a branding alike. -/
theorem IsFormOf.exists_toPatch
    (hread : BrandingPatch.read (Json.dropNulls (.object fields)) = .ok p)
    (h : IsFormOf fields p l) : ∃ q, l.toPatch = .ok q ∧ ∀ b, q.apply b = p.apply b := by
  cases h with
  | written => exact ⟨p, toPatch_of_read hread, fun _ => rfl⟩
  | read => exact ⟨p, rfl, fun _ => rfl⟩
  | @stored env settings h =>
    have hbranding := Settings.branding_of_ofEnvironment h
    refine ⟨p, toPatch_of_read ?_, fun _ => rfl⟩
    rw [hbranding, Json.dropNulls, BrandingPatch.dropNulls_toFields]
    exact BrandingPatch.read_toFields hread
  | padded h =>
    rw [Json.dropNulls] at hread
    obtain ⟨q, hq, hsame⟩ := exists_read_of_matches h.matches hread
    exact ⟨q, toPatch_of_read (by rwa [Json.dropNulls]), hsame⟩

end Forms
end BrandingLayer

namespace Branding
open BrandingLayer

theorem merge_between {l : BrandingLayer} {p : BrandingPatch} (hl : l.toPatch = .ok p)
    (before after : List BrandingLayer) :
    merge (before ++ l :: after) =
      (overlay {} before >>= fun b => overlay (p.apply b) after) >>= reread := by
  rw [merge, overlay_append]
  cases overlay {} before with
  | error e => rfl
  | ok b =>
    have hcons : overlay b (l :: after) = overlay (p.apply b) after := by
      rw [overlay, List.foldlM_cons, hl]
      rfl
    simp only [bind, Except.bind, hcons]

/-- An object that can be read can be read without its nulls. If it can be, it gives the same branding in
each of its forms between any other layers: as it was written, as it was read, as settings hold what was
read, and with nulls added. If the other layers can be read too, it does give one. -/
theorem merge_eq_of_isFormOf (fields : Named Json) :
    ((∃ q, BrandingPatch.read (.object fields) = .ok q) →
      ∃ p, BrandingPatch.read (Json.dropNulls (.object fields)) = .ok p) ∧
    ∀ p, BrandingPatch.read (Json.dropNulls (.object fields)) = .ok p →
      ∀ before after : List BrandingLayer,
        ∃ r, (∀ l, IsFormOf fields p l → merge (before ++ l :: after) = r) ∧
          ((∀ l ∈ before ++ after, ∃ q, l.toPatch = .ok q) → ∃ b, r = .ok b) := by
  refine ⟨fun ⟨q, hq⟩ => BrandingPatch.exists_read_dropNulls hq, fun p h before after => ?_⟩
  refine ⟨merge (before ++ .patch p :: after), fun l hl => ?_, fun hall => ?_⟩
  · obtain ⟨q, hq, hsame⟩ := hl.exists_toPatch h
    rw [merge_between hq, merge_between (l := .patch p) rfl]
    simp only [hsame]
  · refine exists_merge_iff.2 fun l hl => ?_
    rcases List.mem_append.1 hl with hbefore | hrest
    · exact hall l (List.mem_append_left _ hbefore)
    · rcases List.mem_cons.1 hrest with rfl | hafter
      · exact ⟨p, rfl⟩
      · exact hall l (List.mem_append_right _ hafter)

def topFields : Named Json :=
  [("primaryColor".toList, .str " #ABC "),
    ("header".toList, .object [("content".toList, .str "Top")])]

def topFieldsPadded : Named Json :=
  [("primary_color".toList, .null), ("primaryColor".toList, .str " #ABC "),
    ("header".toList, .object [("enabled".toList, .null), ("content".toList, .str "Top")]),
    ("footer".toList, .object [("content".toList, .null)])]

def topPatch : BrandingPatch :=
  { primary := some ⟨170, 187, 204⟩, header := some { content := some "Top".toList } }

theorem merge_eq_of_isFormOf_topFields :
    ((∃ q, BrandingPatch.read (.object topFields) = .ok q) ∧
      BrandingPatch.read (Json.dropNulls (.object topFields)) = .ok topPatch ∧
      Padded topFields topFieldsPadded) ∧
    ∃ settings b, Settings.ofEnvironment [] (.patch topPatch) = .ok settings ∧
      merge [.raw (.object topFields), upperLayer] = .ok b ∧
      merge [.patch topPatch, upperLayer] = .ok b ∧
      merge [.raw (.object settings.branding), upperLayer] = .ok b ∧
      merge [.raw (.object topFieldsPadded), upperLayer] = .ok b := by
  have hpadded : Padded topFields topFieldsPadded :=
    .null _ (.keep _ (.inner _ (.null _ (.keep _ .nil))
      (.added (by decide) rfl (.null _ .nil) .nil)))
  have hread : BrandingPatch.read (Json.dropNulls (.object topFields)) = .ok topPatch := by
    rfl
  obtain ⟨settings, hsettings⟩ : ∃ s, Settings.ofEnvironment [] (.patch topPatch) = .ok s := by
    rw [Settings.ofEnvironment_patch]
    exact ⟨_, rfl⟩
  obtain ⟨r, hforms, hvalid⟩ := (merge_eq_of_isFormOf topFields).2 topPatch hread [] [upperLayer]
  obtain ⟨b, rfl⟩ := hvalid fun l hl => by
    obtain rfl := List.mem_singleton.1 hl
    exact ⟨_, rfl⟩
  exact ⟨⟨⟨_, rfl⟩, hread, hpadded⟩, settings, b, hsettings, hforms _ .written, hforms _ .read,
    hforms _ (.stored hsettings), hforms _ (.padded hpadded)⟩

end Branding
end Letterhead
