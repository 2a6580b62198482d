import Letterhead.Logo.Process
import Letterhead.Proofs.Logo.Fit
import Letterhead.Proofs.Picture.Imaging

/-! Every logo that is made of a source can be read back from its bytes: they are a picture, and its
size is that of the logo. This holds with every library that gives the sizes it is asked for. -/
namespace Letterhead

/-- The bytes of a logo are a picture of its size. -/
def Logo.IsReadable (g : Imaging) (l : Logo) : Prop :=
  ∃ i, g.identify l.bytes = .ok i ∧ l = { bytes := l.bytes, width := i.width, height := i.height }

namespace Logo

section Library
variable {α : Type} {x : Except Picture.Fault α} {a : α} {e : Failure}

theorem ofLibrary_eq_ok_iff : ofLibrary x = .ok a ↔ x = .ok a := by
  cases x <;> simp [ofLibrary, Except.mapError]

theorem ofLibrary_eq_error_iff : ofLibrary x = .error e ↔ ∃ f, x = .error f ∧ e = .picture f := by
  cases x <;> simp [ofLibrary, Except.mapError, eq_comm]

end Library

def IsOfMaking : Failure → Prop
  | .picture _ => True
  | e => IsOfNumber e

theorem failsOnly_ofLibrary {α : Type} (x : Except Picture.Fault α) :
    FailsOnly IsOfMaking (ofLibrary x) := by
  cases x with
  | error f => exact failsOnly_error ⟨⟩
  | ok a => exact failsOnly_ok a

theorem failsOnly_ofImage (g : Imaging) (box : Box) (i : Image) :
    FailsOnly IsOfMaking (ofImage g box i) := by
  unfold ofImage
  split
  · exact failsOnly_ok _
  · have hfit := (failsOnly_fit i.width i.height box.width box.height).imp (Q := IsOfMaking)
      fun e he => by cases e <;> first | exact he.elim | exact ⟨⟩
    exact hfit.bind fun r _ => (failsOnly_ofLibrary _).bind fun _ _ => failsOnly_ok _

theorem failsOnly_process (g : Imaging) (w : Surroundings) (s : Source) (box : Box) :
    FailsOnly IsOfMaking (process g w s box) := by
  unfold process
  split
  · exact failsOnly_ok _
  · next b _ =>
    have hmade := (failsOnly_ofLibrary (g.opened b)).bind fun i _ => failsOnly_ofImage g box i
    generalize ofLibrary (g.opened b) >>= ofImage g box = x at hmade
    cases x with
    | ok r => exact failsOnly_ok r
    | error e =>
      simp only
      split
      · exact failsOnly_ok _
      · exact hmade

/-- A logo is made of some bytes: a library opens them as a picture with sides, which is fitted into
the box and saved anew. -/
structure Makes (g : Imaging) (box : Box) (b : ByteArray) (i : Image) (l : Logo) : Prop where
  opened : g.opened b = .ok i
  width : 0 < i.width
  height : 0 < i.height
  fit : fit i.width i.height box.width box.height = .ok (l.width, l.height)
  redrawn : g.redrawn i l.width.toNat l.height.toNat = .ok l.bytes
  kind : l = { bytes := l.bytes, width := l.width, height := l.height }

section Making
variable {g : Imaging} {w : Surroundings} {s : Source} {box : Box} {b : ByteArray} {i : Image}
  {l : Logo}

theorem exists_of_ofImage (h : ofImage g box i = .ok (some l)) :
    0 < i.width ∧ 0 < i.height ∧
      Logo.fit i.width i.height box.width box.height = .ok (l.width, l.height) ∧
      g.redrawn i l.width.toNat l.height.toNat = .ok l.bytes ∧
      l = { bytes := l.bytes, width := l.width, height := l.height } := by
  unfold ofImage at h
  split at h
  · cases h
  · next hsides =>
    simp only [Bool.or_eq_true, decide_eq_true_eq, not_or] at hsides
    obtain ⟨⟨width, height⟩, hfit, h⟩ := exists_of_bind_eq_ok h
    obtain ⟨file, hfile, h⟩ := exists_of_bind_eq_ok h
    obtain rfl := Option.some.inj (Except.ok.inj h)
    exact ⟨Nat.pos_of_ne_zero hsides.1, Nat.pos_of_ne_zero hsides.2, hfit,
      ofLibrary_eq_ok_iff.1 hfile, rfl⟩

theorem ofImage_of_makes (h : Makes g box b i l) : ofImage g box i = .ok (some l) := by
  have hwidth := h.width.ne'
  have hheight := h.height.ne'
  have hfile : ofLibrary (g.redrawn i l.width.toNat l.height.toNat) = .ok l.bytes :=
    ofLibrary_eq_ok_iff.2 h.redrawn
  rw [ofImage, if_neg (by simp [hwidth, hheight]), h.fit, h.kind]
  simp only [bind, Except.bind, hfile, pure, Except.pure]

/-- Logos are made of the bytes that their sources lead to, and of nothing else. -/
theorem process_eq_some_iff : process g w s box = .ok (some l) ↔
    ∃ b i, s.bytes? w = some b ∧ Makes g box b i l := by
  unfold process
  cases hb : s.bytes? w with
  | none => simp
  | some b =>
    simp only [Option.some.injEq, exists_and_left, exists_eq_left']
    constructor
    · intro h
      split at h
      · next r hr =>
        obtain rfl := Except.ok.inj h
        obtain ⟨i, hopened, hi⟩ := exists_of_bind_eq_ok hr
        obtain ⟨hw, hh, hfit, hfile, hkind⟩ := exists_of_ofImage hi
        exact ⟨i, ofLibrary_eq_ok_iff.1 hopened, hw, hh, hfit, hfile, hkind⟩
      · split at h <;> cases h
    · rintro ⟨i, h⟩
      have hopened : ofLibrary (g.opened b) = .ok i := ofLibrary_eq_ok_iff.2 h.opened
      simp only [hopened, bind, Except.bind, ofImage_of_makes h]

theorem Makes.sides_lt (h : Makes g box b i l) (hg : g.IsSound) :
    i.width < 2 ^ 53 ∧ i.height < 2 ^ 53 := by
  have hlimit : Picture.pixelLimit < 2 ^ 53 := by decide
  have hpixels := hg.pixels_of_opened h.opened
  have hw : i.width ≤ i.width * i.height := Nat.le_mul_of_pos_right _ h.height
  have hh : i.height ≤ i.width * i.height := Nat.le_mul_of_pos_left _ h.width
  omega

/-- No side of a logo is longer than that of its picture. -/
theorem Makes.sides_le (h : Makes g box b i l) (hg : g.IsSound) :
    (1 ≤ l.width ∧ l.width ≤ i.width) ∧ (1 ≤ l.height ∧ l.height ≤ i.height) := by
  have hlt := h.sides_lt hg
  have hw := h.width
  have hh := h.height
  exact fit_le h.fit (by omega) (by omega) (by omega) (by omega)

/-- What is saved as a logo is a picture that may be drawn, of the size of the logo. -/
theorem Makes.exists_saved (h : Makes g box b i l) (hg : g.IsSound) :
    ∃ j, j.IsDrawable ∧ (j.width : Int) = l.width ∧ (j.height : Int) = l.height ∧
      g.save j = .ok l.bytes := by
  have hle := h.sides_le hg
  obtain ⟨j, hsize, hsave⟩ := hg.exists_of_redrawn h.redrawn
  have hwidth : j.width = l.width.toNat := congrArg Prod.fst hsize
  have hheight : j.height = l.height.toNat := congrArg Prod.snd hsize
  refine ⟨j, ⟨by omega, by omega, ?_⟩, by omega, by omega, hsave⟩
  exact (Nat.mul_le_mul (by omega) (by omega)).trans (hg.pixels_of_opened h.opened)

theorem Makes.isReadable (h : Makes g box b i l) (hg : g.IsSound) : l.IsReadable g := by
  obtain ⟨j, hj, hwidth, hheight, hsave⟩ := h.exists_saved hg
  obtain ⟨k, hk, hsize⟩ := hg.readBack hj hsave
  have hkwidth : k.width = j.width := congrArg Prod.fst hsize
  have hkheight : k.height = j.height := congrArg Prod.snd hsize
  refine ⟨k, hk, ?_⟩
  rw [hkwidth, hkheight, hwidth, hheight]
  exact h.kind

/-- The logo of a source can be read back from its bytes. -/
theorem isReadable_of_process (hg : g.IsSound) (h : process g w s box = .ok (some l)) :
    l.IsReadable g := by
  obtain ⟨b, i, -, hmakes⟩ := process_eq_some_iff.1 h
  exact hmakes.isReadable hg

end Making
end Logo
end Letterhead
