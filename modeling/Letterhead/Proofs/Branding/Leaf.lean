import Letterhead.Branding.Layer
import Letterhead.Proofs.Branding.Colour
import Letterhead.Proofs.Text.Trim
import Mathlib.Data.Option.Basic

/-! Leaves: the settings of a branding that layers give one by one, those of header and footer among
them. What is read for a leaf and written again is read as the same. -/
namespace Letterhead

theorem Checked.under_ok_iff {α : Type} {s : PathStep} {x : Checked α} {a : α} :
    x.under s = .ok a ↔ x = .ok a := by
  cases x <;> simp [under]

namespace Json

def under? (names : List String) (fields : Named Json) : Option Json :=
  names.findSome? fun n => fields.lookup n.toList

theorem under?_cons (name : String) (names : List String) (fields : Named Json) :
    under? (name :: names) fields = (fields.lookup name.toList).or (under? names fields) := by
  rw [under?, List.findSome?_cons]
  cases fields.lookup name.toList <;> rfl

theorem under?_nil (fields : Named Json) : under? [] fields = none := rfl

def isNull : Json → Bool
  | null => true
  | _ => false

def fields? : Json → Option (Named Json)
  | object fields => some fields
  | _ => none

def given? (name : String) (fields : Named Json) : Option Json :=
  (fields.find? fun f => f.1 = name.toList && !f.2.isNull).map Prod.snd

def firstGiven? (names : List String) (fields : Named Json) : Option Json :=
  names.findSome? fun n => given? n fields

theorem dropNullField_of_not_isNull {f : Text × Json} (h : f.2.isNull = false) :
    dropNullField f = [(f.1, f.2.dropNulls)] := by
  obtain ⟨name, v⟩ := f
  cases v with
  | null => cases h
  | _ => simp [dropNullField]

theorem dropNullField_of_isNull {f : Text × Json} (h : f.2.isNull = true) :
    dropNullField f = [] := by
  obtain ⟨name, v⟩ := f
  cases v with
  | null => simp [dropNullField]
  | _ => cases h

/-- Without its nulls an object has, under each name, the value that was given. -/
theorem lookup_dropNullFields (name : String) (fields : Named Json) :
    (dropNullFields fields).lookup name.toList = (given? name fields).map dropNulls := by
  induction fields with
  | nil => simp [dropNullFields, given?]
  | cons f fields ih =>
    have hstep : dropNullFields (f :: fields) = dropNullField f ++ dropNullFields fields := by
      rw [dropNullFields]
    rw [hstep]
    cases hnull : f.2.isNull with
    | true =>
      have hskip : given? name (f :: fields) = given? name fields := by
        rw [given?, List.find?_cons_of_neg (by simp [hnull]), given?]
      rw [dropNullField_of_isNull hnull, List.nil_append, ih, hskip]
    | false =>
      rw [dropNullField_of_not_isNull hnull, List.singleton_append, List.lookup_cons, ih]
      by_cases hname : f.1 = name.toList
      · have hfirst : given? name (f :: fields) = some f.2 := by
          rw [given?, List.find?_cons_of_pos (by simp [hnull, hname]), Option.map_some]
        simp [hname, hfirst]
      · have hskip : given? name (f :: fields) = given? name fields := by
          rw [given?, List.find?_cons_of_neg (by simp [hname]), given?]
        have hne : (name.toList == f.1) = false := beq_eq_false_iff_ne.2 (Ne.symm hname)
        rw [hskip, hne]

theorem under?_dropNullFields (names : List String) (fields : Named Json) :
    under? names (dropNullFields fields) = (firstGiven? names fields).map dropNulls := by
  simp only [under?, firstGiven?, lookup_dropNullFields, List.map_findSome?]
  rfl

end Json

namespace Form

theorem label_text_of_label {v : Json} {t : Text} (h : label v = .ok t) :
    label (.text t) = .ok t := by
  have htrim : Text.trim t = t := by
    cases v <;> cases h <;> simp
  simp [label, htrim]

theorem fontFamily_text_of_fontFamily {v : Json} {t : Text} (h : fontFamily v = .ok t) :
    fontFamily (.text t) = .ok t := by
  have hnormal : t.isEmpty = false ∧ Text.trim t = t := by
    cases h
    split
    · decide
    · next hne => exact ⟨by simpa using hne, Text.trim_trim _⟩
  obtain ⟨hne, htrim⟩ := hnormal
  simp [fontFamily, Json.displayTruthy, Json.isTruthy, htrim, hne]

/-- A colour that was read is written as a text that is read as the same colour. -/
theorem colour_text_of_colour {v : Json} {c : Colour} (h : colour v = .ok c) :
    colour (.text c.text) = .ok c := by
  cases h
  exact congrArg Checked.ok (Colour.ofJson_text_ofJson v)

theorem record_ok_iff {α : Type} {kind : FaultKind} {read : Named Json → Checked α} {v : Json}
    {a : α} :
    record kind read v = .ok a ↔ ∃ fields, v = .object fields ∧ read fields = .ok a := by
  cases v <;> simp [Form.record, Checked.fault]

/-- A field is read as nothing if it is absent, and else as its value. -/
theorem field_ok_iff {α : Type} {names : List String} {fields : Named Json}
    {read : Reader α} {o : Option α} :
    Form.field names fields read = .ok o ↔
      Option.Rel (fun v a => read v = .ok a) (Json.under? names fields) o := by
  have hunder : Json.under? names fields =
      (Json.firstField? (names.map String.toList) fields).map Prod.snd := by
    simp [Json.under?, Json.firstField?, List.map_findSome?, List.findSome?_map,
      Function.comp_def]
  rw [hunder, Form.field]
  cases Json.firstField? (names.map String.toList) fields with
  | none =>
    constructor
    · intro h
      cases h
      exact .none
    · intro h
      cases h
      rfl
  | some f =>
    simp only [Checked.under_ok_iff, Checked.map_ok_iff, Option.map_some]
    constructor
    · rintro ⟨a, ha, rfl⟩
      exact .some ha
    · intro h
      cases h with
      | some ha => exact ⟨_, ha, rfl⟩

end Form

theorem HeaderPatch.fields_of_read {v : Json} {p : HeaderPatch} (h : HeaderPatch.read v = .ok p) :
    ∃ fields, v = .object fields ∧
      Form.field ["enabled"] fields Form.bool = .ok p.enabled ∧
      Form.field ["content"] fields Form.text = .ok p.content := by
  simp only [read, Form.record_ok_iff, Checked.seq_ok_iff, Checked.map_ok_iff] at h
  obtain ⟨fields, rfl, -, content, ⟨enabled, henabled, rfl⟩, hcontent, rfl⟩ := h
  exact ⟨fields, rfl, henabled, hcontent⟩

theorem FooterPatch.fields_of_read {v : Json} {p : FooterPatch} (h : FooterPatch.read v = .ok p) :
    ∃ fields, v = .object fields ∧
      Form.field ["enabled"] fields Form.bool = .ok p.enabled ∧
      Form.field ["content"] fields Form.text = .ok p.content ∧
      Form.field ["include_page_number", "includePageNumber"] fields Form.bool =
        .ok p.pageNumber := by
  simp only [read, Form.record_ok_iff, Checked.seq_ok_iff, Checked.map_ok_iff] at h
  obtain ⟨fields, rfl, -, _, ⟨-, _, ⟨_, henabled, rfl⟩, hcontent, rfl⟩, hnumber, rfl⟩ := h
  exact ⟨fields, rfl, henabled, hcontent, hnumber⟩

/-- A patch is read from an object field by field. -/
theorem BrandingPatch.read_object_ok_iff {fields : Named Json} {p : BrandingPatch} :
    BrandingPatch.read (.object fields) = .ok p ↔
      Form.field ["enabled"] fields Form.bool = .ok p.enabled ∧
      Form.field ["logo_url", "logoUrl", "logoSource", "logo_source"] fields Form.label =
        .ok p.logo ∧
      Form.field ["organization_name", "organizationName"] fields Form.label =
        .ok p.organization ∧
      Form.field ["primary_color", "primaryColor"] fields Form.colour = .ok p.primary ∧
      Form.field ["font_family", "fontFamily"] fields Form.fontFamily = .ok p.font ∧
      Form.field ["header"] fields HeaderPatch.read = .ok p.header ∧
      Form.field ["footer"] fields FooterPatch.read = .ok p.footer := by
  simp only [BrandingPatch.read, Form.record, Checked.seq_ok_iff, Checked.map_ok_iff]
  constructor
  · rintro ⟨-, footer, ⟨-, header, ⟨-, _, ⟨-, _, ⟨-, _, ⟨-, _, ⟨_, henabled, rfl⟩, hlogo, rfl⟩,
      horganization, rfl⟩, hprimary, rfl⟩, hfont, rfl⟩, hheader, rfl⟩, hfooter, rfl⟩
    exact ⟨henabled, hlogo, horganization, hprimary, hfont, hheader, hfooter⟩
  · rintro ⟨henabled, hlogo, horganization, hprimary, hfont, hheader, hfooter⟩
    exact ⟨_, _, ⟨_, _, ⟨_, _, ⟨_, _, ⟨_, _, ⟨_, _, ⟨_, henabled, rfl⟩, hlogo, rfl⟩,
      horganization, rfl⟩, hprimary, rfl⟩, hfont, rfl⟩, hheader, rfl⟩, hfooter, rfl⟩

inductive Leaf where
  | enabled
  | logo
  | organization
  | primary
  | font
  | headerEnabled
  | headerContent
  | footerEnabled
  | footerContent
  | pageNumber
deriving DecidableEq, Repr

namespace Leaf

def Value : Leaf → Type
  | enabled | headerEnabled | footerEnabled | pageNumber => Bool
  | logo | organization | font | headerContent | footerContent => Text
  | primary => Colour

def section? : Leaf → Option String
  | headerEnabled | headerContent => some "header"
  | footerEnabled | footerContent | pageNumber => some "footer"
  | _ => none

def names : Leaf → List String
  | enabled | headerEnabled | footerEnabled => ["enabled"]
  | logo => ["logo_url", "logoUrl", "logoSource", "logo_source"]
  | organization => ["organization_name", "organizationName"]
  | primary => ["primary_color", "primaryColor"]
  | font => ["font_family", "fontFamily"]
  | headerContent | footerContent => ["content"]
  | pageNumber => ["include_page_number", "includePageNumber"]

def read : (leaf : Leaf) → Reader leaf.Value
  | enabled | headerEnabled | footerEnabled | pageNumber => Form.bool
  | logo | organization => Form.label
  | primary => Form.colour
  | font => Form.fontFamily
  | headerContent | footerContent => Form.text

def write : (leaf : Leaf) → leaf.Value → Json
  | enabled | headerEnabled | footerEnabled | pageNumber => Json.bool
  | logo | organization | font | headerContent | footerContent => Json.text
  | primary => fun c => Json.text c.text

def value : (leaf : Leaf) → Branding → leaf.Value
  | enabled, b => b.enabled
  | logo, b => b.logo
  | organization, b => b.organization
  | primary, b => b.primary
  | font, b => b.font
  | headerEnabled, b => b.header.enabled
  | headerContent, b => b.header.content
  | footerEnabled, b => b.footer.enabled
  | footerContent, b => b.footer.content
  | pageNumber, b => b.footer.pageNumber

def new? : (leaf : Leaf) → BrandingPatch → Option leaf.Value
  | enabled, p => p.enabled
  | logo, p => p.logo
  | organization, p => p.organization
  | primary, p => p.primary
  | font, p => p.font
  | headerEnabled, p => p.header.bind HeaderPatch.enabled
  | headerContent, p => p.header.bind HeaderPatch.content
  | footerEnabled, p => p.footer.bind FooterPatch.enabled
  | footerContent, p => p.footer.bind FooterPatch.content
  | pageNumber, p => p.footer.bind FooterPatch.pageNumber

def held? (leaf : Leaf) (value? : List String → Named Json → Option Json) (fields : Named Json) :
    Option Json :=
  match leaf.section? with
  | none => value? leaf.names fields
  | some part => ((value? [part] fields).bind Json.fields?).bind (value? leaf.names)

/-- What a layer gives for a leaf, as JSON. In an object as it was written a null gives nothing,
and the first name with another value counts; what was read before gives what was set in it. -/
def given? (leaf : Leaf) : BrandingLayer → Option Json
  | .raw (.object fields) => (leaf.held? Json.firstGiven? fields).map Json.dropNulls
  | .patch p => (leaf.new? p).map leaf.write
  | _ => none

theorem ext {b c : Branding} (h : ∀ leaf : Leaf, leaf.value b = leaf.value c) : b = c := by
  obtain ⟨_, _, _, _, _, ⟨_, _⟩, ⟨_, _, _⟩⟩ := b
  obtain ⟨_, _, _, _, _, ⟨_, _⟩, ⟨_, _, _⟩⟩ := c
  have h₁ := h enabled
  have h₂ := h logo
  have h₃ := h organization
  have h₄ := h primary
  have h₅ := h font
  have h₆ := h headerEnabled
  have h₇ := h headerContent
  have h₈ := h footerEnabled
  have h₉ := h footerContent
  have h₁₀ := h pageNumber
  simp only [value] at *
  subst_vars
  rfl

theorem value_apply (leaf : Leaf) (p : BrandingPatch) (b : Branding) :
    leaf.value (p.apply b) = (leaf.new? p).getD (leaf.value b) := by
  obtain ⟨_, _, _, _, _, header, footer⟩ := p
  cases leaf with
  | enabled | logo | organization | primary | font => rfl
  | headerEnabled | headerContent => cases header <;> rfl
  | footerEnabled | footerContent | pageNumber => cases footer <;> rfl

/-- A patch that was read from an object gives the value that is held for a leaf. -/
theorem new?_of_read {fields : Named Json} {p : BrandingPatch}
    (h : BrandingPatch.read (.object fields) = .ok p) (leaf : Leaf) :
    Option.Rel (fun v a => leaf.read v = .ok a) (leaf.held? Json.under? fields) (leaf.new? p) := by
  obtain ⟨_, _, _, _, _, header, footer⟩ := p
  obtain ⟨henabled, hlogo, horganization, hprimary, hfont, hheader, hfooter⟩ :=
    BrandingPatch.read_object_ok_iff.1 h
  simp only [Form.field_ok_iff] at hheader hfooter
  generalize hsection : Json.under? ["header"] fields = headerSection at hheader
  generalize hsection' : Json.under? ["footer"] fields = footerSection at hfooter
  cases leaf with
  | enabled => exact Form.field_ok_iff.1 henabled
  | logo => exact Form.field_ok_iff.1 hlogo
  | organization => exact Form.field_ok_iff.1 horganization
  | primary => exact Form.field_ok_iff.1 hprimary
  | font => exact Form.field_ok_iff.1 hfont
  | headerEnabled | headerContent =>
    simp only [held?, section?, hsection]
    cases hheader with
    | none => exact .none
    | some hread =>
      obtain ⟨inner, rfl, henabled, hcontent⟩ := HeaderPatch.fields_of_read hread
      first
        | exact Form.field_ok_iff.1 henabled
        | exact Form.field_ok_iff.1 hcontent
  | footerEnabled | footerContent | pageNumber =>
    simp only [held?, section?, hsection']
    cases hfooter with
    | none => exact .none
    | some hread =>
      obtain ⟨inner, rfl, henabled, hcontent, hnumber⟩ := FooterPatch.fields_of_read hread
      first
        | exact Form.field_ok_iff.1 henabled
        | exact Form.field_ok_iff.1 hcontent
        | exact Form.field_ok_iff.1 hnumber

/-- What an object holds for a leaf once its nulls are dropped is what it gave before. -/
theorem held?_dropNullFields (leaf : Leaf) (fields : Named Json) :
    leaf.held? Json.under? (Json.dropNullFields fields) =
      (leaf.held? Json.firstGiven? fields).map Json.dropNulls := by
  unfold held?
  cases leaf.section? with
  | none => exact Json.under?_dropNullFields _ _
  | some part =>
    simp only [Json.under?_dropNullFields]
    cases Json.firstGiven? [part] fields with
    | none => rfl
    | some v =>
      cases v with
      | object inner => simp [Json.dropNulls, Json.fields?, Json.under?_dropNullFields]
      | _ => simp [Json.dropNulls, Json.fields?]

/-- A value that was read for a leaf is read again as it was written. -/
theorem read_write_of_read {leaf : Leaf} {v : Json} {a : leaf.Value} (h : leaf.read v = .ok a) :
    leaf.read (leaf.write a) = .ok a := by
  cases leaf with
  | enabled | headerEnabled | footerEnabled | pageNumber => rfl
  | headerContent | footerContent => rfl
  | logo | organization => exact Form.label_text_of_label h
  | primary => exact Form.colour_text_of_colour h
  | font => exact Form.fontFamily_text_of_fontFamily h

end Leaf

end Letterhead
