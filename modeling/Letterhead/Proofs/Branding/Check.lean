import Letterhead.Branding.Check
import Letterhead.Proofs.Branding.Forms
import Letterhead.Proofs.Json.Display

/-! Problems of a branding as it is written. They are sought in the object with its nulls, under names of
their own, while the branding is read from what is left of the object without them. Where no problem is
found, the branding keeps to every limit all the same, and has the colour that was written. -/
namespace Letterhead

theorem Text.length_trim_le (t : Text) : (trim t).length ≤ t.length :=
  (isPrefix_trimRight _).length_le.trans (trimLeft_suffix t).length_le

theorem Colour.text_ofJson_of_digits {t ds : Text} (hlength : ds.length = 6)
    (hdigits : ∀ c ∈ ds, (hexDigit? c).isSome = true) (htrim : Text.trim t = '#' :: ds) :
    (ofJson (.text t)).text = Text.lower (Text.trim t) := by
  have hne : t.isEmpty = false := by
    cases t with
    | nil => cases htrim
    | cons c t => rfl
  have hdisplay : Json.displayTruthy (.text t) = t := by
    simp [Json.displayTruthy, Json.isTruthy, hne]
  have hall : ds.all (fun c => (hexDigit? c).isSome) = true := List.all_eq_true.2 hdigits
  have hlower : Text.lower ('#' :: ds) = '#' :: Text.lowerAscii ds := by
    rw [Text.lower_of_ascii]
    · rfl
    · exact List.forall_mem_cons.2 ⟨by decide, fun c hc => lt_of_hexDigit? (hdigits c hc)⟩
  rw [text_ofJson, normalize, hdisplay, htrim, hlower]
  simp [digits?, hall, hlength]

namespace Json

/-- Where no name stands twice, the value that is given for a name is the one under it, unless that is
null. -/
theorem given?_eq_of_nodup {fields : Named Json} (h : (fields.map Prod.fst).Nodup)
    (name : String) :
    given? name fields = (fields.lookup name.toList).filter fun v => !v.isNull := by
  induction fields with
  | nil => rfl
  | cons f fields ih =>
    obtain ⟨hfresh, h⟩ := List.nodup_cons.1 h
    rw [List.lookup_cons]
    by_cases hname : f.1 = name.toList
    · have hnone : given? name fields = none :=
        given?_of_lookup_eq_none (List.lookup_eq_none_iff.2 fun g hg =>
          bne_iff_ne.2 fun he => hfresh (hname.trans he ▸ List.mem_map_of_mem hg))
      rw [hname, beq_self_eq_true, Option.filter_some]
      cases hnull : f.2.isNull with
      | true =>
        rw [given?, List.find?_cons_of_neg (by simp [hnull])]
        exact hnone
      | false =>
        rw [given?, List.find?_cons_of_pos (by simp [hname, hnull])]
        rfl
    · rw [beq_eq_false_iff_ne.2 (Ne.symm hname), given?,
        List.find?_cons_of_neg (by simp [hname])]
      exact ih h

theorem lookup_of_given? {fields : Named Json} (h : (fields.map Prod.fst).Nodup)
    {name : String} {v : Json} (hv : given? name fields = some v) :
    fields.lookup name.toList = some v := by
  rw [given?_eq_of_nodup h] at hv
  exact (Option.filter_eq_some_iff.1 hv).1

end Json

namespace Branding

/-- A colour that is written in full has six digits, and blanks at its end at most. -/
theorem exists_of_isStrictColour {t : Text} (h : isStrictColour t = true) :
    ∃ ds, ds.length = 6 ∧ (∀ c ∈ ds, (hexDigit? c).isSome = true) ∧ Text.trim t = '#' :: ds := by
  unfold isStrictColour at h
  split at h
  · next rest =>
    simp only [Bool.and_eq_true, Bool.or_eq_true, beq_iff_eq, List.all_eq_true] at h
    obtain ⟨⟨hlength, hdigits⟩, hend⟩ := h
    refine ⟨rest.take 6, hlength, hdigits, ?_⟩
    have hblanks : ∀ c ∈ rest.drop 6, isBlank c = true := by
      rcases hend with he | he
      · rw [he]
        exact fun c hc => absurd hc List.not_mem_nil
      · rw [he]
        exact List.forall_mem_singleton.2 (by decide)
    have hsplit : '#' :: rest = '#' :: rest.take 6 ++ rest.drop 6 := by simp
    have hne : rest.take 6 ≠ [] := List.ne_nil_of_length_pos (by omega)
    obtain ⟨front, last, hfront⟩ := (rest.take 6).eq_nil_or_concat'.resolve_left hne
    have hlast : isBlank last = false :=
      isBlank_of_hexDigit? (hdigits last (by simp [hfront]))
    have htrim := Text.trim_framed (c := '#') (by decide) hlast front
    rw [hsplit, ← Text.trim_trimRight, Text.trimRight_append_blanks _ hblanks,
      Text.trim_trimRight, hfront, htrim]
  · cases h

theorem length_display_le {name : String} {limit : Nat} {v : Json} (hlimit : 5 ≤ limit)
    (h : lengthProblem name limit (some v) = []) : v.display.length ≤ limit := by
  cases htruthy : v.isTruthy with
  | true =>
    have hle : ¬ limit < v.displayTruthy.length := fun hlt => by simp [lengthProblem, hlt] at h
    rw [Json.displayTruthy, if_pos htruthy] at hle
    exact Nat.le_of_not_lt hle
  | false => exact (Json.length_display_of_not_isTruthy htruthy).trans hlimit

theorem length_le_of_label {v : Json} {t : Text} (h : Form.label v = .ok t) :
    t.length ≤ v.display.length := by
  cases v with
  | null =>
    cases h
    exact Nat.zero_le _
  | _ =>
    cases h
    exact Text.length_trim_le _

theorem length_le_of_text {v : Json} {t : Text} (h : Form.text v = .ok t) :
    t.length ≤ v.display.length := by
  cases v with
  | text u =>
    cases h
    exact Nat.le_refl _
  | _ => cases h

/-- What is read from a value without a problem keeps to the limit of the value. -/
theorem length_le_of_value {name : String} {limit : Nat} {o o' : Option Json} {read : Reader Text}
    {t : Text} (hlimit : 5 ≤ limit) (hproblem : lengthProblem name limit o' = [])
    (hsame : ∀ v, o = some v → o' = some v)
    (hread : ∀ v, read v = .ok t → t.length ≤ v.display.length)
    (h : (∀ v, o = some v → read v.dropNulls = .ok t) ∧ (o = none → t = [])) :
    t.length ≤ limit := by
  cases o with
  | none =>
    rw [h.2 rfl]
    exact Nat.zero_le _
  | some v =>
    rw [hsame v rfl] at hproblem
    calc
      t.length ≤ v.dropNulls.display.length := hread _ (h.1 v rfl)
      _ ≤ v.display.length := Json.length_display_dropNulls_le v
      _ ≤ limit := length_display_le hlimit hproblem

variable {fields : Named Json} {b : Branding}

/-- A layer alone gives each leaf the value that it holds for it, read without its nulls. -/
theorem value_of_merge (h : merge [.raw (.object fields)] = .ok b) (leaf : Leaf) :
    (∀ v, leaf.held? Json.firstGiven? fields = some v →
      leaf.read v.dropNulls = .ok (leaf.value b)) ∧
    (leaf.held? Json.firstGiven? fields = none → leaf.value b = leaf.value {}) := by
  have hlast : leaf.lastGiven? [.raw (.object fields)] =
      (leaf.held? Json.firstGiven? fields).map Json.dropNulls := by
    rw [← List.nil_append [_], Leaf.lastGiven?_concat]
    exact Option.or_none
  have hvalue := value_of_merge_eq_ok h leaf
  rw [hlast] at hvalue
  constructor
  · intro v hheld
    rw [hheld] at hvalue
    exact hvalue
  · intro hheld
    rw [hheld] at hvalue
    exact hvalue

/-- An object has one value for each of its names, and so has each object in it. -/
structure HasDistinctNames (fields : Named Json) : Prop where
  names : (fields.map Prod.fst).Nodup
  inner : ∀ name part, (name, Json.object part) ∈ fields → (part.map Prod.fst).Nodup

theorem firstValue?_eq {fields : Named Json} (h : (fields.map Prod.fst).Nodup)
    (names : List String) :
    firstValue? (names.map String.toList) fields = Json.firstGiven? names fields := by
  rw [firstValue?, List.findSome?_map, Json.firstGiven?]
  congr 1
  funext name
  rw [Json.given?_eq_of_nodup h, Function.comp_apply]
  cases fields.lookup name.toList with
  | none => rfl
  | some v => cases v <;> rfl

/-- What is held for a leaf outside the sections is the value that problems are sought in. -/
theorem firstValue?_of_held? (h : HasDistinctNames fields) (leaf : Leaf)
    (hsection : leaf.section? = none) (v : Json)
    (hv : leaf.held? Json.firstGiven? fields = some v) :
    firstValue? (leaf.names.map String.toList) fields = some v := by
  rw [firstValue?_eq h.names]
  simpa only [Leaf.held?, hsection] using hv

/-- The content that is held in a section is the one that problems are sought in. -/
theorem sectionContent?_of_held? (h : HasDistinctNames fields) (leaf : Leaf) {name : String}
    (hsection : leaf.section? = some name) (hnames : leaf.names = ["content"]) (v : Json)
    (hv : leaf.held? Json.firstGiven? fields = some v) : sectionContent? name fields = some v := by
  have hone : ∀ (n : String) (fs : Named Json), Json.firstGiven? [n] fs = Json.given? n fs :=
    fun n fs => by
      rw [Json.firstGiven?, List.findSome?_cons]
      cases Json.given? n fs <;> rfl
  simp only [Leaf.held?, hsection, hnames, hone, Option.bind_eq_some_iff] at hv
  obtain ⟨part, ⟨w, hw, hpart⟩, hv⟩ := hv
  obtain rfl : w = .object part := by
    cases w with
    | object fs => exact congrArg Json.object (Option.some.inj hpart)
    | _ => cases hpart
  have hlookup := Json.lookup_of_given? h.names hw
  obtain ⟨before, after, hfields, -⟩ := List.lookup_eq_some_iff.1 hlookup
  have hinner := h.inner name.toList part (by simp [hfields])
  rw [sectionContent?, hlookup]
  exact Json.lookup_of_given? hinner hv

/-- A colour without a problem, unless it counts as no, is a text, and the colour that is read from it is
that text trimmed and in lower case. -/
theorem text_of_colour {v : Json} {c : Colour} (hproblem : colourProblem (some v) = [])
    (htruthy : v.isTruthy = true) (h : Form.colour v.dropNulls = .ok c) :
    ∃ t, v = .text t ∧ c.text = Text.lower (Text.trim t) := by
  have hstrict : isStrictColour v.display = true := by
    by_contra hnot
    rw [colourProblem, if_pos (by simp [htruthy, hnot])] at hproblem
    cases hproblem
  obtain ⟨rest, hstart⟩ : ∃ rest, v.display = '#' :: rest := by
    unfold isStrictColour at hstrict
    split at hstrict
    · next rest he => exact ⟨rest, he⟩
    · cases hstrict
  obtain rfl := Json.eq_text_of_display hstart
  obtain ⟨ds, hlength, hdigits, htrim⟩ := exists_of_isStrictColour hstrict
  rw [(Json.dropNulls_plain.2 _).2] at h
  cases h
  exact ⟨_, rfl, Colour.text_ofJson_of_digits hlength hdigits htrim⟩

/-- A written branding without problems makes, where it can be read, a branding within the limits, and
its colour, if it gives one, is the colour of that branding. -/
theorem limits_of_check (hnames : HasDistinctNames fields)
    (hmerge : merge [.raw (.object fields)] = .ok b) (hcheck : check (.object fields) = .ok []) :
    b.logo.length ≤ 2000 ∧ b.organization.length ≤ 200 ∧ b.header.content.length ≤ 500 ∧
      b.footer.content.length ≤ 500 ∧
      ∀ v, Json.firstGiven? Leaf.primary.names fields = some v → v.isTruthy = true →
        ∃ t, v = .text t ∧ b.primary.text = Text.lower (Text.trim t) := by
  have hproblems : problems fields = [] := Except.ok.inj hcheck
  simp only [problems, List.append_eq_nil_iff] at hproblems
  obtain ⟨⟨⟨⟨hcolour, hlogo⟩, horganization⟩, hheader⟩, hfooter⟩ := hproblems
  have hvalue := value_of_merge hmerge
  refine ⟨?_, ?_, ?_, ?_, fun v hv htruthy => ?_⟩
  · exact length_le_of_value (by decide) hlogo (firstValue?_of_held? hnames .logo rfl)
      (fun _ => length_le_of_label) (hvalue .logo)
  · exact length_le_of_value (by decide) horganization
      (firstValue?_of_held? hnames .organization rfl) (fun _ => length_le_of_label)
      (hvalue .organization)
  · exact length_le_of_value (by decide) hheader
      (sectionContent?_of_held? hnames .headerContent rfl rfl) (fun _ => length_le_of_text)
      (hvalue .headerContent)
  · exact length_le_of_value (by decide) hfooter
      (sectionContent?_of_held? hnames .footerContent rfl rfl) (fun _ => length_le_of_text)
      (hvalue .footerContent)
  · have hsought : firstValue? colourNames fields = some v :=
      firstValue?_of_held? hnames .primary rfl v hv
    rw [hsought] at hcolour
    exact text_of_colour hcolour htruthy ((hvalue .primary).1 v hv)

def mixedFields : Named Json :=
  [("primary_color".toList, .null), ("primaryColor".toList, .str "#ABCDEF\n"),
    ("logoSource".toList, .object [("at".toList, .null), ("of".toList, .int 7)]),
    ("header".toList, .object [("enabled".toList, .null), ("content".toList, .str "Top")])]

theorem limits_of_check_mixedFields :
    (HasDistinctNames mixedFields ∧ check (.object mixedFields) = .ok []) ∧
      ∃ b, merge [.raw (.object mixedFields)] = .ok b ∧ b.logo.length ≤ 2000 ∧
        b.primary.text = "#abcdef".toList := by
  have hnames : HasDistinctNames mixedFields := by
    refine ⟨by decide, fun name part h => ?_⟩
    simp only [mixedFields, Json.str, List.mem_cons, Prod.mk.injEq, reduceCtorEq, and_false,
      Json.object.injEq, List.not_mem_nil, or_false, false_or] at h
    rcases h with ⟨-, rfl⟩ | ⟨-, rfl⟩ <;> decide
  have hcheck : check (.object mixedFields) = .ok [] :=
    congrArg Except.ok (by decide +kernel : problems mixedFields = [])
  obtain ⟨b, hb⟩ : ∃ b, merge [.raw (.object mixedFields)] = .ok b := ⟨_, rfl⟩
  obtain ⟨hlogo, -, -, -, hcolour⟩ := limits_of_check hnames hb hcheck
  obtain ⟨t, ht, htext⟩ := hcolour (.str "#ABCDEF\n") (by rfl) (by rfl)
  obtain rfl := Json.text.inj ht
  exact ⟨⟨hnames, hcheck⟩, b, hb, hlogo, htext⟩

end Branding
end Letterhead
