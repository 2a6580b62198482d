import Letterhead.Proofs.Logo.Cache
import Letterhead.Proofs.Logo.Failing

/-! Entries of the cache that are cut off, as a write leaves them that breaks off. An entry that cannot
even be opened is made anew. One that can is taken for the logo: it is handed out, and stays. Since a
library opens a file by its start, this is so for every logo from some place of the cut on. -/
namespace Letterhead.Logo.Cache

/-- A call gives what it gives through an empty cache, and leaves a logo if the cache can be written. -/
structure Heals (g : Imaging) (c : Cache) (d : Load) (l : Logo) : Prop where
  given : (d.through g c).1 = (d.through g {}).1
  kept : d.writable = true → ∀ key, d.key? = some key → (d.through g c).2.get? key = some l.bytes

section Entry
variable {g : Imaging} {c : Cache} {d : Load} {l : Logo} {b : ByteArray} {key : Text}

theorem get?_single (key : Text) (b : ByteArray) : get? ⟨[(key, .bytes b)]⟩ key = some b := by
  rw [get?, List.lookup_cons_self]

theorem get?_set_of_get? (h : c.get? key = some b) (b' : ByteArray) :
    (c.set key b').get? key = some b' := by
  unfold get? at h
  split at h
  · next hb =>
    have hset : c.set key b' = ⟨Named.set key (.bytes b') c.entries⟩ := by rw [set, hb]
    rw [hset, get?, Named.lookup_set_self]
  · cases h

theorem fst_through_empty (hkey : d.key? = some key) : (d.through g {}).1 = d.made g := by
  rw [through_of_logo?_none hkey rfl]

theorem through_of_identify (hkey : d.key? = some key) (hentry : c.get? key = some b) {i : Image}
    (hi : g.identify b = .ok i) :
    d.through g c = (.ok (some { bytes := b, width := i.width, height := i.height }), c) := by
  refine through_of_logo?_some hkey ?_
  simp only [logo?, hentry, hi]

theorem through_of_loud (hkey : d.key? = some key) (hentry : c.get? key = some b)
    {f : Picture.Fault} (hf : g.identify b = .error f) (hloud : f ≠ .unreadable) :
    d.through g c = (.error (.picture f), c) := by
  refine through_of_logo?_error hkey ?_
  cases f <;> first | exact absurd rfl hloud | simp only [logo?, hentry, hf]

theorem heals_of_unreadable (hkey : d.key? = some key) (hmade : d.made g = .ok (some l))
    (hentry : c.get? key = some b) (hf : g.identify b = .error .unreadable) : c.Heals g d l := by
  have hlogo : c.logo? g key = .ok none := by simp only [logo?, hentry, hf]
  have hthrough := through_of_logo?_none hkey hlogo
  refine ⟨?_, fun hwritable other hother => ?_⟩
  · rw [fst_through_empty hkey, hthrough]
  · obtain rfl := Option.some.inj (hkey.symm.trans hother)
    have hkept := Load.kept?_eq_some_iff.2 ⟨hwritable, hmade⟩
    rw [hthrough, hkept]
    exact get?_set_of_get? hentry l.bytes

theorem heals_iff_unreadable (hkey : d.key? = some key) (hmade : d.made g = .ok (some l))
    (hentry : c.get? key = some b) (hne : b ≠ l.bytes) :
    c.Heals g d l ↔ g.identify b = .error .unreadable := by
  refine ⟨fun hheals => ?_, heals_of_unreadable hkey hmade hentry⟩
  have hgiven := hheals.given
  rw [fst_through_empty hkey, hmade] at hgiven
  cases hi : g.identify b with
  | ok i =>
    rw [through_of_identify hkey hentry hi] at hgiven
    exact absurd (congrArg Logo.bytes (Option.some.inj (Except.ok.inj hgiven))) hne
  | error f =>
    by_cases hquiet : f = .unreadable
    · rw [hquiet]
    · rw [through_of_loud hkey hentry hi hquiet] at hgiven
      cases hgiven

/-- From some place of the cut on, what is left of a logo is opened as a picture of its size. -/
theorem exists_identify_of_prefix (hg : g.IsSound) (hlazy : g.IsLazy)
    (hmade : d.made g = .ok (some l)) :
    ∃ n < l.bytes.size, ∀ b : ByteArray, Bytes.toList b <+: Bytes.toList l.bytes → n ≤ b.size →
      ∃ i, g.identify b = .ok i ∧
        { l with bytes := b } = ({ bytes := b, width := i.width, height := i.height } : Logo) := by
  obtain ⟨_, i, -, hmakes⟩ := process_eq_some_iff.1 hmade
  obtain ⟨j, hj, hwidth, hheight, hsave⟩ := hmakes.exists_saved hg
  obtain ⟨n, hn, hprefix⟩ := hlazy hj hsave
  refine ⟨n, hn, fun b hb hle => ?_⟩
  obtain ⟨k, hk, hsize⟩ := hprefix b hb hle
  have hkwidth : k.width = j.width := congrArg Prod.fst hsize
  have hkheight : k.height = j.height := congrArg Prod.snd hsize
  refine ⟨k, hk, ?_⟩
  rw [hkwidth, hkheight, hwidth, hheight, hmakes.kind]

end Entry

/-- An entry that is a part of the logo is made anew exactly where the library cannot read it. What the
library can open is handed out as the logo, and the cache stays as it is; any other fault of the
library breaks the call. From some place on, wherever the entry is cut off, it is handed out. -/
theorem heals_iff_of_cut {g : Imaging} (hg : g.IsSound) (hlazy : g.IsLazy) {d : Load} {l : Logo}
    {key : Text} (hkey : d.key? = some key) (hmade : d.made g = .ok (some l)) :
    (∀ c b, Cache.get? c key = some b → Bytes.toList b <+: Bytes.toList l.bytes → b ≠ l.bytes →
      (c.Heals g d l ↔ g.identify b = .error .unreadable) ∧
      (∀ i, g.identify b = .ok i →
        d.through g c = (.ok (some { bytes := b, width := i.width, height := i.height }), c)) ∧
      ∀ f, g.identify b = .error f → f ≠ .unreadable →
        d.through g c = (.error (.picture f), c)) ∧
    ∃ n < l.bytes.size, ∀ c b, Cache.get? c key = some b →
      Bytes.toList b <+: Bytes.toList l.bytes → b ≠ l.bytes → n ≤ b.size →
        d.through g c = (.ok (some { l with bytes := b }), c) ∧ ¬ c.Heals g d l := by
  refine ⟨fun c b hentry _ hne => ?_, ?_⟩
  · exact ⟨heals_iff_unreadable hkey hmade hentry hne, fun i => through_of_identify hkey hentry,
      fun f => through_of_loud hkey hentry⟩
  · obtain ⟨n, hn, hprefix⟩ := exists_identify_of_prefix hg hlazy hmade
    refine ⟨n, hn, fun c b hentry hcut hne hle => ?_⟩
    obtain ⟨i, hi, hlogo⟩ := hprefix b hcut hle
    refine ⟨(through_of_identify hkey hentry hi).trans (by rw [hlogo]), fun hheals => ?_⟩
    have hunreadable := (heals_iff_unreadable hkey hmade hentry hne).1 hheals
    rw [hi] at hunreadable
    cases hunreadable

def pointLoad : Load := { surroundings := {}, source := .bytes (bitmap 1 0), box := .usual }

def pointLogo : Logo :=
  { bytes := Png.write ⟨.colour, 1, 1, Bytes.ofList [0xFF, 0, 0]⟩, width := 1, height := 1 }

def pointKey : Text := Sha256.text (Text.utf8 (keyText (bitmap 1 0) .usual))

def pointStart (n : Nat) : ByteArray := Bytes.ofList ((Bytes.toList pointLogo.bytes).take n)

def torn (n : Nat) : Cache := ⟨[(pointKey, .bytes (pointStart n))]⟩

theorem made_pointLoad : pointLoad.made .plain = .ok (some pointLogo) := by rfl

theorem key?_pointLoad : pointLoad.key? = some pointKey := rfl

theorem isPrefix_pointStart (n : Nat) :
    Bytes.toList (pointStart n) <+: Bytes.toList pointLogo.bytes := by
  rw [pointStart, Bytes.toList_ofList]
  exact List.take_prefix n _

theorem pointStart_ne {n : Nat} (hn : n < 72) : pointStart n ≠ pointLogo.bytes := fun h => by
  have hlength : (Bytes.toList pointLogo.bytes).length = 72 := by decide +kernel
  have hsize : (pointStart n).size = ((Bytes.toList pointLogo.bytes).take n).length := rfl
  rw [h, List.length_take, hlength, Nat.min_eq_left hn.le] at hsize
  exact absurd (hlength.symm.trans hsize) hn.ne'

theorem identify_pointStart_short :
    Imaging.plain.identify (pointStart 40) = .error .unreadable := by
  have hread : Picture.readHeader (pointStart 40) = .error .unreadable := by decide +kernel
  simp only [Imaging.plain, Imaging.Plain.identify, hread]
  rfl

theorem identify_pointStart_long {n : Nat}
    (h : Picture.readHeader (pointStart n) = .ok ⟨.colour, 1, 1⟩) :
    Imaging.plain.identify (pointStart n) = .ok ⟨some .colour, 1, 1, pointStart n⟩ := by
  simp only [Imaging.plain, Imaging.Plain.identify, h]
  rfl

/-- Of the 72 bytes of the logo of a red point, 40 are made anew, and 41 are handed out. -/
theorem heals_iff_of_cut_torn :
    (pointLoad.key? = some pointKey ∧ pointLoad.made .plain = .ok (some pointLogo)) ∧
    (torn 40).Heals .plain pointLoad pointLogo ∧
      pointLoad.through .plain (torn 41) =
        (.ok (some { pointLogo with bytes := pointStart 41 }), torn 41) := by
  have hcut := (heals_iff_of_cut Imaging.isSound_plain Imaging.isLazy_plain key?_pointLoad
    made_pointLoad).1
  refine ⟨⟨key?_pointLoad, made_pointLoad⟩, ?_, ?_⟩
  · exact (hcut (torn 40) _ (get?_single _ _) (isPrefix_pointStart 40)
      (pointStart_ne (by decide))).1.2 identify_pointStart_short
  · exact (hcut (torn 41) _ (get?_single _ _) (isPrefix_pointStart 41)
      (pointStart_ne (by decide))).2.1 _ (identify_pointStart_long (by decide +kernel))

/-- With all but the last byte of the logo in the cache, another logo is handed out than is made of the
picture, and the cache does not get the whole one. -/
theorem not_heals_torn :
    pointLoad.made .plain = .ok (some pointLogo) ∧
      (torn 71).get? pointKey = some (pointStart 71) ∧
      Bytes.toList (pointStart 71) <+: Bytes.toList pointLogo.bytes ∧
      pointStart 71 ≠ pointLogo.bytes ∧ ¬ (torn 71).Heals .plain pointLoad pointLogo ∧
      (pointLoad.through .plain (torn 71)).2.get? pointKey = some (pointStart 71) := by
  have hentry : (torn 71).get? pointKey = some (pointStart 71) := get?_single _ _
  have hne : pointStart 71 ≠ pointLogo.bytes := pointStart_ne (by decide)
  have hopened := identify_pointStart_long (n := 71) (by decide +kernel)
  refine ⟨made_pointLoad, hentry, isPrefix_pointStart 71, hne, fun hheals => ?_, ?_⟩
  · have hunreadable := (heals_iff_unreadable key?_pointLoad made_pointLoad hentry hne).1 hheals
    rw [hopened] at hunreadable
    cases hunreadable
  · rw [through_of_identify key?_pointLoad hentry hopened]
    exact hentry

end Letterhead.Logo.Cache
