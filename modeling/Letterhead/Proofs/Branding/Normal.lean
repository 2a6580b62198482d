import Letterhead.Proofs.Branding.Merge
import Letterhead.Proofs.Word.Colours

/-! Normal colours: six digits in lower case behind a number sign. Whatever a colour is read from, it
is written as one of them, and a document can be set in it. -/
namespace Letterhead

namespace Colour

def IsNormal (t : Text) : Prop := ∃ ds, t = '#' :: ds ∧ ds.length = 6 ∧ ds ⊆ hexDigits

def number (t : Text) : Nat := t.foldl (fun n c => 16 * n + (hexDigit? c).getD 0) 0

/-- The components that are packed in a number, the red one highest. -/
def unpack (n : Nat) : Colour := ⟨n >>> 16 &&& 255, n >>> 8 &&& 255, n &&& 255⟩

theorem unpack_eq (n : Nat) : unpack n = ⟨n / 65536 % 256, n / 256 % 256, n % 256⟩ := by
  have hmask : ∀ m : Nat, m &&& 255 = m % 256 := fun m => Nat.and_two_pow_sub_one_eq_mod m 8
  simp only [unpack, hmask, Nat.shiftRight_eq_div_pow, Nat.reducePow]

theorem hexDigit?_lt (c : Char) : (hexDigit? c).getD 0 < 16 := by
  simp only [hexDigit?, Bool.and_eq_true, decide_eq_true_eq]
  split
  · next hdigit =>
    have hle := (le_of_isDigit hdigit).2
    simp only [Option.getD_some]
    omega
  · split
    · simp only [Option.getD_some]
      omega
    · split
      · simp only [Option.getD_some]
        omega
      · decide

/-- Six digits taken in pairs are the components that their number packs. -/
theorem ofText_eq_unpack (c : Char) {ds : Text} (h : ds.length = 6) :
    ofText (c :: ds) = unpack (number ds) := by
  match ds, h with
  | [r, r', g, g', b, b'], _ =>
    have hr := hexDigit?_lt r
    have hr' := hexDigit?_lt r'
    have hg := hexDigit?_lt g
    have hg' := hexDigit?_lt g'
    have hb := hexDigit?_lt b
    have hb' := hexDigit?_lt b'
    simp only [unpack_eq, ofText, component, number, List.drop_succ_cons, List.drop_zero,
      List.take_succ_cons, List.take_zero, List.foldl_cons, List.foldl_nil, mk.injEq]
    omega

theorem hexDigit?_toUpper {c : Char} (h : c ∈ hexDigits) :
    hexDigit? c.toUpper = hexDigit? c ∧ (hexDigit? c).isSome = true := by
  have hall : (hexDigits.all fun c =>
      hexDigit? c.toUpper = hexDigit? c ∧ (hexDigit? c).isSome = true) = true := by
    decide +kernel
  simp only [List.all_eq_true, decide_eq_true_eq] at hall
  exact hall c h

/-- In upper case digits have the same number. -/
theorem number_upperAscii {ds : Text} (h : ds ⊆ hexDigits) :
    number (Text.upperAscii ds) = number ds := by
  rw [number, Text.upperAscii, List.foldl_map]
  exact List.foldl_ext _ _ _ fun n c hc => by rw [(hexDigit?_toUpper (h hc)).1]

theorem isSome_of_mem_upperAscii {ds : Text} (h : ds ⊆ hexDigits) :
    ∀ c ∈ Text.upperAscii ds, (hexDigit? c).isSome = true := by
  refine List.forall_mem_map.2 fun c hc => ?_
  obtain ⟨hsame, hsome⟩ := hexDigit?_toUpper (h hc)
  rw [hsame, hsome]

theorem isNormal_normalize {fallback : Text} (h : IsNormal fallback) (v : Json) :
    IsNormal (normalize fallback v) := by
  unfold normalize
  split
  · next ds hds => exact ⟨ds, rfl, digits?_eq_some hds⟩
  · exact h

theorem normalize_of_isNormal {t : Text} (h : IsNormal t) (fallback : Text) :
    normalize fallback (.text t) = t := by
  obtain ⟨ds, rfl, hlength, hds⟩ := h
  exact normalize_digits fallback hlength hds

theorem isNormal_defaultText : IsNormal defaultText := ⟨_, rfl, by decide, by decide⟩

theorem ofJson_defaultText : ofJson (.text defaultText) = ofText defaultText := by
  rw [ofJson, normalize_of_isNormal isNormal_defaultText]

/-- The colour of a value has the components that the digits of its text pack. -/
theorem ofJson_eq_unpack (v : Json) :
    ofJson v = unpack (number ((normalize defaultText v).drop 1)) := by
  obtain ⟨ds, hds, hlength, -⟩ := isNormal_normalize isNormal_defaultText v
  rw [ofJson, hds, ofText_eq_unpack _ hlength, List.drop_one, List.tail_cons]

theorem component_hex_append {n : Nat} (h : n ≤ 255) (rest : Text) :
    component (Text.hex 2 n ++ rest) = n := by
  have hall : ∀ n < 256, component (Text.hex 2 n) = n := by decide +kernel
  have hlength := (hex_two h).1
  have htake : (Text.hex 2 n ++ rest).take 2 = (Text.hex 2 n).take 2 := by
    rw [List.take_append_of_le_length (by omega)]
  rw [component, htake]
  exact hall n (by omega)

/-- Components are read again as they were pressed into their range. -/
theorem ofText_textOf (r g b : Int) : ofText (textOf [r, g, b]) = ⟨clamp r, clamp g, clamp b⟩ := by
  have hdrop : ∀ (n : Int) (rest : Text), (Text.hex 2 (clamp n) ++ rest).drop 2 = rest :=
    fun n _ => List.drop_left' (hex_two (clamp_le n)).1
  have hpairs : ∀ t, ofText ('#' :: t) =
      ⟨component t, component (t.drop 2), component ((t.drop 2).drop 2)⟩ := fun t => by
    rw [List.drop_drop]
    rfl
  rw [textOf, hpairs, List.flatMap_cons, List.flatMap_cons, List.flatMap_cons, hdrop, hdrop]
  simp only [component_hex_append (clamp_le _)]

theorem ofJson_textOf (r g b : Int) :
    ofJson (.text (textOf [r, g, b])) = ⟨clamp r, clamp g, clamp b⟩ := by
  rw [ofJson, normalize_of_isNormal (exists_textOf_eq r g b), ofText_textOf]

theorem ofNat_clamp (n : Int) : Int.ofNat (clamp n) = max 0 (min 255 n) := by
  rw [Int.ofNat_eq_natCast]
  unfold clamp
  omega

end Colour

namespace Branding

/-- The colour of a branding is the normal form of a value, and `parse` reads it and every colour of a
document that is made under the branding. -/
structure ShowsColour (parse : Text → Option Colour) (b : Branding) (v : Json) : Prop where
  digits : b.primaryDigits.length = 6 ∧ b.primaryDigits ⊆ Colour.hexDigits
  normal : '#' :: b.primaryDigits = Colour.normalize Colour.defaultText v
  parsed : parse (Word.primaryOf b) = some b.primary
  document : ∀ {blocks title m l now d}, Word.document blocks b title m l now = .ok d →
    ∀ c ∈ d.colours, (parse c).isSome = true

section Shows
variable {parse : Text → Option Colour} {b : Branding}

def ReadsDigits (parse : Text → Option Colour) : Prop :=
  ∀ ds : Text, ds.length = 6 → (∀ c ∈ ds, (hexDigit? c).isSome = true) →
    parse ds = some (Colour.unpack (Colour.number ds))

theorem showsColour_of_primary (hparse : ReadsDigits parse) {v : Json}
    (h : b.primary = Colour.ofJson v) : ShowsColour parse b v := by
  obtain ⟨ds, htext, hlength, hds⟩ := Colour.exists_text_eq b.primary
  have hdigits : b.primaryDigits = ds := congrArg (List.drop 1) htext
  have hnormal : '#' :: ds = Colour.normalize Colour.defaultText v := by
    rw [← htext, h, Colour.text_ofJson]
  have hupper : parse (Word.primaryOf b) = some b.primary := by
    rw [Word.primaryOf, hdigits, hparse, Colour.number_upperAscii hds,
      ← Colour.ofText_eq_unpack '#' hlength, hnormal, h, Colour.ofJson]
    · simpa [Text.upperAscii] using hlength
    · exact Colour.isSome_of_mem_upperAscii hds
  refine ⟨hdigits ▸ ⟨hlength, hds⟩, hdigits ▸ hnormal, hupper, fun hd c hc => ?_⟩
  have hmem := Word.colours_document hd hc
  simp only [Word.palette, List.mem_cons, List.not_mem_nil, or_false] at hmem
  rcases hmem with rfl | rfl | rfl
  · rw [hupper, Option.isSome_some]
  · rw [hparse _ (by decide) (List.all_eq_true.1 (by decide)), Option.isSome_some]
  · rw [hparse _ (by decide) (List.all_eq_true.1 (by decide)), Option.isSome_some]

/-- The colour of a branding that was read is that of the value under its name, or else the default. -/
theorem primary_of_read {fields : Named Json} (h : read (.object fields) = .ok b) :
    b.primary = Colour.ofJson
      ((Json.under? Leaf.primary.names fields).getD (.text Colour.defaultText)) := by
  obtain ⟨p, hp, rfl⟩ := Checked.map_ok_iff.1 h
  have hnew : Option.Rel (fun v c => Form.colour v = .ok c)
      (Json.under? Leaf.primary.names fields) p.primary := Leaf.new?_of_read hp .primary
  change p.primary.getD (.ofText Colour.defaultText) = _
  generalize Json.under? Leaf.primary.names fields = held at hnew ⊢
  generalize p.primary = new at hnew ⊢
  cases hnew with
  | none => exact Colour.ofJson_defaultText.symm
  | some hread => exact (Checked.ok.inj hread).symm

theorem primary_of_merge {layers : List BrandingLayer} (h : merge layers = .ok b) :
    b.primary = Colour.ofJson
      ((Leaf.primary.lastGiven? layers).getD (.text Colour.defaultText)) := by
  have hvalue := value_of_merge_eq_ok h .primary
  cases hlast : Leaf.primary.lastGiven? layers with
  | none =>
    rw [hlast] at hvalue
    exact hvalue.trans Colour.ofJson_defaultText.symm
  | some v =>
    rw [hlast] at hvalue
    exact (Checked.ok.inj hvalue).symm

end Shows
end Branding

namespace Colour

/-- Colours have one normal form. What a value stands for is in that form and stands for itself; the
components that it packs are written as it again, and components are read as they are pressed into
their range. So every branding that is read or merged has a colour that a document is set in. -/
theorem normal_colours {parse : Text → Option Colour} (hparse : Branding.ReadsDigits parse) :
    (IsNormal defaultText ∧ ∀ fallback v, IsNormal fallback →
      IsNormal (normalize fallback v) ∧
      ∀ other, normalize other (.text (normalize fallback v)) = normalize fallback v) ∧
    (∀ v, ofJson v = unpack (number ((normalize defaultText v).drop 1)) ∧
      textOfValues ((ofJson v).components.map fun n => .int n) = .ok (normalize defaultText v)) ∧
    (∀ r g b : Int, ∃ t, textOfValues [.int r, .int g, .int b] = .ok t ∧
      (ofJson (.text t)).components.map Int.ofNat = [r, g, b].map fun n => max 0 (min 255 n)) ∧
    (∀ v b, Branding.read v = .ok b → ∃ fields, v = .object fields ∧
      Branding.ShowsColour parse b
        ((Json.under? Leaf.primary.names fields).getD (.text defaultText))) ∧
    ∀ layers b, Branding.merge layers = .ok b →
      Branding.ShowsColour parse b
        ((Leaf.primary.lastGiven? layers).getD (.text defaultText)) := by
  refine ⟨⟨isNormal_defaultText, fun fallback v h => ?_⟩, fun v => ?_, fun r g b => ?_,
    fun v b h => ?_, fun layers b h => ?_⟩
  · have hnormal := isNormal_normalize h v
    exact ⟨hnormal, normalize_of_isNormal hnormal⟩
  · exact ⟨ofJson_eq_unpack v, congrArg Except.ok (text_ofJson v)⟩
  · refine ⟨textOf [r, g, b], rfl, ?_⟩
    rw [ofJson_textOf]
    simp only [components, List.map_cons, List.map_nil, ofNat_clamp]
  · obtain ⟨p, hp, -⟩ := Checked.map_ok_iff.1 h
    obtain ⟨fields, rfl, -⟩ := Form.record_ok_iff.1 hp
    exact ⟨fields, rfl, Branding.showsColour_of_primary hparse (Branding.primary_of_read h)⟩
  · exact Branding.showsColour_of_primary hparse (Branding.primary_of_merge h)

def parsePairs (t : Text) : Option Colour :=
  if t.length = 6 ∧ t.all (fun c => (hexDigit? c).isSome) = true then
    some ⟨component t, component (t.drop 2), component (t.drop 4)⟩
  else none

theorem readsDigits_parsePairs : Branding.ReadsDigits parsePairs := by
  intro ds hlength hds
  rw [parsePairs, if_pos ⟨hlength, List.all_eq_true.2 hds⟩, ← ofText_eq_unpack '#' hlength]
  rfl

def looseColour : Json := .str " #ABC\n"

def looseFields : Named Json :=
  [("enabled".toList, .bool true), ("primaryColor".toList, looseColour)]

/-- Read on its own or below a layer that has a null for it, the colour is shown with its digits
doubled; a text that is no colour stands for the fallback. -/
theorem normal_colours_looseColour :
    Branding.ReadsDigits parsePairs ∧
    IsNormal (normalize "#ffffff".toList (.str "blue")) ∧
    (∃ b, Branding.read (.object looseFields) = .ok b ∧ '#' :: b.primaryDigits = "#aabbcc".toList ∧
      parsePairs (Word.primaryOf b) = some b.primary) ∧
    ∃ b, Branding.merge [.raw (.object looseFields),
        .raw (.object [("primary_color".toList, .null)])] = .ok b ∧
      '#' :: b.primaryDigits = "#aabbcc".toList ∧
      parsePairs (Word.primaryOf b) = some b.primary := by
  obtain ⟨⟨-, hnormal⟩, -, -, hread, hmerge⟩ := normal_colours readsDigits_parsePairs
  have hwhite : IsNormal "#ffffff".toList := ⟨_, rfl, by decide, by decide⟩
  have hloose : normalize defaultText looseColour = "#aabbcc".toList := by decide
  obtain ⟨b, hb⟩ : ∃ b, Branding.read (.object looseFields) = .ok b := ⟨_, rfl⟩
  obtain ⟨c, hc⟩ : ∃ c, Branding.merge [.raw (.object looseFields),
      .raw (.object [("primary_color".toList, .null)])] = .ok c := ⟨_, rfl⟩
  obtain ⟨fields, hfields, hshows⟩ := hread _ b hb
  obtain rfl := Json.object.inj hfields
  have hshows' := hmerge _ c hc
  exact ⟨readsDigits_parsePairs, (hnormal _ _ hwhite).1,
    ⟨b, hb, hshows.normal.trans hloose, hshows.parsed⟩,
    c, hc, hshows'.normal.trans hloose, hshows'.parsed⟩

end Colour
end Letterhead
