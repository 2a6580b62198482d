import Letterhead.Document.Settings
import Letterhead.Proofs.Branding.Merge

/-! Patches as they are written. What was read and is written has no nulls and is read as the same patch,
and the settings that are made of it hold it as it is written. -/
namespace Letterhead

namespace HeaderPatch

theorem read_toJson (p : HeaderPatch) : read p.toJson = .ok p := by
  obtain ⟨enabled, content⟩ := p
  cases enabled <;> cases content <;> rfl

end HeaderPatch

namespace FooterPatch

theorem read_toJson (p : FooterPatch) : read p.toJson = .ok p := by
  obtain ⟨enabled, content, pageNumber⟩ := p
  cases enabled <;> cases content <;> cases pageNumber <;> rfl

end FooterPatch

namespace Json

section Written
variable {α : Type} {name other : String} (o : Option α) (write : α → Json) (rest : Named Json)

theorem lookup_written_self :
    ((o.map fun a => (name.toList, write a)).toList ++ rest).lookup name.toList =
      (o.map write).or (rest.lookup name.toList) := by
  cases o <;> simp

theorem lookup_written_of_ne (h : other ≠ name) :
    ((o.map fun a => (name.toList, write a)).toList ++ rest).lookup other.toList =
      rest.lookup other.toList := by
  have hne : (other.toList == name.toList) = false :=
    beq_eq_false_iff_ne.2 fun he => h (String.toList_inj.1 he)
  cases o <;> simp [List.lookup_cons, hne]

theorem dropNullFields_append (fields more : Named Json) :
    dropNullFields (fields ++ more) = dropNullFields fields ++ dropNullFields more := by
  induction fields with
  | nil => simp [dropNullFields]
  | cons f fields ih => simp [dropNullFields, ih]

theorem dropNullFields_written {name : Text}
    (h : ∀ a, (write a).isNull = false ∧ (write a).dropNulls = write a)
    (hrest : dropNullFields rest = rest) :
    dropNullFields ((o.map fun a => (name, write a)).toList ++ rest) =
      (o.map fun a => (name, write a)).toList ++ rest := by
  cases o with
  | none => exact hrest
  | some a =>
    rw [dropNullFields_append, hrest]
    simp [dropNullFields, dropNullField_of_not_isNull (f := (name, write a)) (h a).1, (h a).2]

end Written

theorem dropNullFields_nil : dropNullFields [] = [] := by
  rw [dropNullFields]

theorem dropNulls_plain :
    (∀ b, (bool b).isNull = false ∧ (bool b).dropNulls = bool b) ∧
      ∀ t, (text t).isNull = false ∧ (text t).dropNulls = text t :=
  ⟨fun _ => ⟨rfl, by rw [dropNulls]; simp⟩, fun _ => ⟨rfl, by rw [dropNulls]; simp⟩⟩

end Json

namespace HeaderPatch

theorem dropNulls_toJson (p : HeaderPatch) :
    p.toJson.isNull = false ∧ p.toJson.dropNulls = p.toJson := by
  refine ⟨rfl, ?_⟩
  rw [toJson, Json.dropNulls, ← List.append_nil (Option.toList (p.content.map _)),
    Json.dropNullFields_written _ _ _ Json.dropNulls_plain.1
      (Json.dropNullFields_written _ _ _ Json.dropNulls_plain.2 Json.dropNullFields_nil)]

end HeaderPatch

namespace FooterPatch

theorem dropNulls_toJson (p : FooterPatch) :
    p.toJson.isNull = false ∧ p.toJson.dropNulls = p.toJson := by
  refine ⟨rfl, ?_⟩
  rw [toJson, Json.dropNulls, List.append_assoc,
    ← List.append_nil (Option.toList (p.pageNumber.map _)),
    Json.dropNullFields_written _ _ _ Json.dropNulls_plain.1
      (Json.dropNullFields_written _ _ _ Json.dropNulls_plain.2
        (Json.dropNullFields_written _ _ _ Json.dropNulls_plain.1 Json.dropNullFields_nil))]

end FooterPatch

namespace BrandingPatch

theorem under?_toFields (p : BrandingPatch) :
    Json.under? ["enabled"] p.toFields = p.enabled.map Json.bool ∧
      Json.under? ["logo_url", "logoUrl", "logoSource", "logo_source"] p.toFields =
        p.logo.map Json.text ∧
      Json.under? ["organization_name", "organizationName"] p.toFields =
        p.organization.map Json.text ∧
      Json.under? ["primary_color", "primaryColor"] p.toFields =
        p.primary.map (fun c => Json.text c.text) ∧
      Json.under? ["font_family", "fontFamily"] p.toFields = p.font.map Json.text ∧
      Json.under? ["header"] p.toFields = p.header.map HeaderPatch.toJson ∧
      Json.under? ["footer"] p.toFields = p.footer.map FooterPatch.toJson := by
  -- With a rest behind it the last setting is looked up like the others.
  have hend : p.toFields = p.toFields ++ [] := (List.append_nil _).symm
  rw [hend]
  simp (disch := simp) only [toFields, List.append_assoc, Json.under?_cons, Json.under?_nil,
    Json.lookup_written_self, Json.lookup_written_of_ne, List.lookup_nil, Option.or_none,
    and_self]

theorem dropNulls_toFields (p : BrandingPatch) : Json.dropNullFields p.toFields = p.toFields := by
  have hcolour : ∀ c : Colour, (Json.text c.text).isNull = false ∧
      (Json.text c.text).dropNulls = Json.text c.text := fun c => Json.dropNulls_plain.2 c.text
  rw [toFields, ← List.append_nil (Option.toList (p.footer.map _))]
  simp only [List.append_assoc]
  exact Json.dropNullFields_written _ _ _ Json.dropNulls_plain.1 <|
    Json.dropNullFields_written _ _ _ Json.dropNulls_plain.2 <|
    Json.dropNullFields_written _ _ _ Json.dropNulls_plain.2 <|
    Json.dropNullFields_written _ _ _ hcolour <|
    Json.dropNullFields_written _ _ _ Json.dropNulls_plain.2 <|
    Json.dropNullFields_written _ _ _ HeaderPatch.dropNulls_toJson <|
    Json.dropNullFields_written _ _ _ FooterPatch.dropNulls_toJson Json.dropNullFields_nil

theorem field_written {α : Type} {names : List String} {fields : Named Json} {o : Option α}
    {write : α → Json} {read : Reader α} (hfields : Json.under? names fields = o.map write)
    (h : ∀ a, o = some a → read (write a) = .ok a) : Form.field names fields read = .ok o := by
  rw [Form.field_ok_iff, hfields]
  cases o with
  | none => exact .none
  | some a => exact .some (h a rfl)

/-- A patch that was read and is written is read as the same patch. -/
theorem read_toFields {v : Json} {p : BrandingPatch} (h : read v = .ok p) :
    read (.object p.toFields) = .ok p := by
  obtain ⟨henabled, hlogo, horganization, hprimary, hfont, hheader, hfooter⟩ := under?_toFields p
  have hleaf : ∀ (leaf : Leaf) a, leaf.new? p = some a → leaf.read (leaf.write a) = .ok a :=
    fun _ _ ha => Leaf.read_write_of_new? h ha
  rw [read_object_ok_iff]
  exact ⟨field_written henabled (hleaf .enabled), field_written hlogo (hleaf .logo),
    field_written horganization (hleaf .organization), field_written hprimary (hleaf .primary),
    field_written hfont (hleaf .font),
    field_written hheader fun a _ => a.read_toJson,
    field_written hfooter fun a _ => a.read_toJson⟩

end BrandingPatch

namespace Settings

def written (format : Text) (formats : List Json) (days : Int) (size : Binary64)
    (branding : Named Json) : Named Json := [
  ("default_format".toList, .text format),
  ("enabled_formats".toList, .array formats),
  ("branding".toList, .object branding),
  ("expiration_days".toList, .int days),
  ("max_document_size_mb".toList, .float size)]

/-- Only the branding of the settings comes of the branding that is written. -/
theorem read_written (format : Text) (formats : List Json) (days : Int) (size : Binary64)
    (branding : Named Json) :
    read (.object (written format formats days size branding)) =
      (fun s => { s with branding := branding }) <$>
        read (.object (written format formats days size [])) := by
  -- Whatever is looked up under another name passes over the branding.
  have hsame : ∀ {α : Type} (name : String) (rd : Reader α),
      name ∈ ["enabled", "default_format", "enabled_formats", "expiration_days",
        "max_document_size_mb"] →
      Form.field [name] (written format formats days size branding) rd =
        Form.field [name] (written format formats days size []) rd := by
    intro α name rd hname
    simp only [List.mem_cons, List.not_mem_nil, or_false] at hname
    rcases hname with rfl | rfl | rfl | rfl | rfl <;> rfl
  have hbranding : ∀ fields, Form.field ["branding"] (written format formats days size fields)
      Form.object = .ok (some fields) := fun _ => rfl
  simp only [read, Form.record, hbranding, hsame "enabled" _ (by simp),
    hsame "default_format" _ (by simp), hsame "enabled_formats" _ (by simp),
    hsame "expiration_days" _ (by simp), hsame "max_document_size_mb" _ (by simp)]
  generalize Form.field ["enabled"] (written format formats days size []) Form.bool = enabled
  generalize Form.field ["default_format"] (written format formats days size []) _ = standard
  generalize Form.field ["enabled_formats"] (written format formats days size []) _ = named
  generalize Form.field ["expiration_days"] (written format formats days size []) _ = expiry
  generalize Form.field ["max_document_size_mb"] (written format formats days size []) _ = limit
  cases enabled <;> cases standard <;> cases named <;> cases expiry <;> cases limit <;> rfl

/-- The branding of the settings is what was read, and all else comes of the environment. -/
theorem ofEnvironment_patch (env : Named Text) (p : BrandingPatch) :
    ofEnvironment env (.patch p) =
      (ofEnvironment env .empty).map fun s => { s with branding := p.toFields } := by
  unfold ofEnvironment
  cases Numeral.whole (valueOf env "DOCGEN_EXPIRATION_DAYS" "30") with
  | error e => rfl
  | ok days =>
    cases Numeral.real (valueOf env "DOCGEN_MAX_SIZE_MB" "50") with
    | error e => rfl
    | ok size =>
      have hread := fun format formats => read_written format formats days size p.toFields
      simp only [written] at hread
      simp only [bind, Except.bind, brandingValue, hread]
      generalize read _ = x
      cases x <;> rfl

theorem branding_of_ofEnvironment {env : Named Text} {p : BrandingPatch} {s : Settings}
    (h : ofEnvironment env (.patch p) = .ok s) : s.branding = p.toFields := by
  rw [ofEnvironment_patch] at h
  cases hempty : ofEnvironment env .empty with
  | error e =>
    rw [hempty] at h
    cases h
  | ok t =>
    rw [hempty] at h
    cases h
    rfl

end Settings

end Letterhead
