import Letterhead.Branding.Colour
import Letterhead.Proofs.Text.Ascii
import Letterhead.Proofs.Text.Trim

/-! Colours as texts. A colour is written as six digits behind a number sign, and the colour that a
value stands for is written as the text of that value. -/
namespace Letterhead.Colour

def hexDigits : Text := "0123456789abcdef".toList

theorem hex_two {n : Nat} (h : n ≤ 255) :
    (Text.hex 2 n).length = 2 ∧ Text.hex 2 n ⊆ hexDigits := by
  have hall : ∀ n < 256, (Text.hex 2 n).length = 2 ∧ Text.hex 2 n ⊆ hexDigits := by
    decide +kernel
  exact hall n (by omega)

theorem exists_textOf_eq (r g b : Int) :
    ∃ ds, textOf [r, g, b] = '#' :: ds ∧ ds.length = 6 ∧ ds ⊆ hexDigits := by
  have hdigits := fun n => hex_two (clamp_le n)
  refine ⟨_, rfl, ?_, fun d hd => ?_⟩
  · simp [hdigits]
  · obtain ⟨n, -, hd⟩ := List.mem_flatMap.1 hd
    exact (hdigits n).2 hd

theorem exists_text_eq (c : Colour) :
    ∃ ds, c.text = '#' :: ds ∧ ds.length = 6 ∧ ds ⊆ hexDigits :=
  exists_textOf_eq c.red c.green c.blue

theorem toLower_mem_hexDigits {c : Char} (h : (hexDigit? c).isSome = true) :
    c.toLower ∈ hexDigits := by
  have hlt := lt_of_hexDigit? h
  revert h
  exact forall_ascii hlt (by decide +kernel)

theorem digits?_eq_some {t ds : Text} (h : digits? t = some ds) :
    ds.length = 6 ∧ ds ⊆ hexDigits := by
  simp only [digits?] at h
  generalize (if t.head? == some '#' then t.drop 1 else t) = body at h
  have hlower : body.all (fun c => (hexDigit? c).isSome) = true →
      Text.lowerAscii body ⊆ hexDigits := by
    intro hall d hd
    obtain ⟨c, hc, rfl⟩ := List.mem_map.1 hd
    exact toLower_mem_hexDigits (List.all_eq_true.1 hall c hc)
  split at h
  · next hall =>
    split at h
    · next hlength =>
      obtain rfl := Option.some.inj h
      exact ⟨by simpa [Text.lowerAscii] using hlength, hlower hall⟩
    · split at h
      · next hlength =>
        obtain rfl := Option.some.inj h
        refine ⟨by match body, hlength with | [a, b, c], _ => rfl, fun d hd => ?_⟩
        obtain ⟨c, hc, hd⟩ := List.mem_flatMap.1 hd
        have hdc : d = c := by simpa using hd
        exact hdc ▸ hlower hall hc
      · cases h
  · cases h

/-- A text of six digits is read as a colour that is written as that text. -/
theorem text_ofText {ds : Text} (hlength : ds.length = 6) (hds : ds ⊆ hexDigits) :
    (ofText ('#' :: ds)).text = '#' :: ds := by
  have hpair : (hexDigits.all fun a => hexDigits.all fun b =>
      Text.hex 2 (component [a, b]) = [a, b] ∧ component [a, b] ≤ 255) = true := by
    decide +kernel
  simp only [List.all_eq_true, decide_eq_true_eq] at hpair
  have hcomponent : ∀ {a b} (rest : Text), a ∈ hexDigits → b ∈ hexDigits →
      Text.hex 2 (clamp (component (a :: b :: rest))) = [a, b] := by
    intro a b rest ha hb
    obtain ⟨hhex, hle⟩ := hpair a ha b hb
    have htake : component (a :: b :: rest) = component [a, b] := rfl
    rw [htake, clamp_ofNat hle, hhex]
  match ds, hlength with
  | [a, b, c, d, e, f], _ =>
    simp only [List.cons_subset] at hds
    obtain ⟨ha, hb, hc, hd, he, hf, -⟩ := hds
    have hred := hcomponent [c, d, e, f] ha hb
    have hgreen := hcomponent [e, f] hc hd
    have hblue := hcomponent [] he hf
    simp [text, textOf, ofText, components, hred, hgreen, hblue]

theorem text_ofJson (v : Json) : (ofJson v).text = normalize defaultText v := by
  unfold ofJson normalize
  split
  · next ds h =>
    obtain ⟨hlength, hds⟩ := digits?_eq_some h
    exact text_ofText hlength hds
  · decide +kernel

/-- A text of six digits behind a number sign is normal. -/
theorem normalize_digits (fallback : Text) {ds : Text} (hlength : ds.length = 6)
    (hds : ds ⊆ hexDigits) : normalize fallback (.text ('#' :: ds)) = '#' :: ds := by
  have hdigits : (hexDigits.all fun c =>
      isBlank c = false ∧ (hexDigit? c).isSome = true ∧ c.toLower = c) = true := by
    decide +kernel
  simp only [List.all_eq_true, decide_eq_true_eq] at hdigits
  have hdigit := fun c hc => hdigits c (hds hc)
  have htrim : Text.trim ('#' :: ds) = '#' :: ds := by
    have hne : ds ≠ [] := List.ne_nil_of_length_pos (by omega)
    obtain ⟨front, last, rfl⟩ := ds.eq_nil_or_concat'.resolve_left hne
    exact Text.trim_framed (by decide) (hdigit _ (by simp)).1 front
  have hall : ds.all (fun c => (hexDigit? c).isSome) = true :=
    List.all_eq_true.2 fun c hc => (hdigit c hc).2.1
  have hlower : Text.lowerAscii ds = ds :=
    (List.map_congr_left fun c hc => (hdigit c hc).2.2).trans ds.map_id'
  have hdisplay : Json.displayTruthy (.text ('#' :: ds)) = '#' :: ds := rfl
  simp [normalize, hdisplay, htrim, digits?, hall, hlength, hlower]

/-- A colour that was read is written as a text that is read as the same colour. -/
theorem ofJson_text_ofJson (v : Json) : ofJson (.text (ofJson v).text) = ofJson v := by
  obtain ⟨ds, htext, hlength, hds⟩ := exists_text_eq (ofJson v)
  have hnormal : normalize defaultText (.text (ofJson v).text) = (ofJson v).text := by
    rw [htext, normalize_digits _ hlength hds]
  rw [ofJson, hnormal, text_ofJson, ofJson]

end Letterhead.Colour
