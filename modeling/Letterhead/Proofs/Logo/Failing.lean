import Letterhead.Proofs.Logo.Process

/-! Where making a logo fails. Nothing but the library can make it fail: a source without bytes, an
address that does not answer and a size that is rounded give a logo or none. The library's own faults
are taken for no logo only if they are of the two families that are expected. -/
namespace Letterhead.Logo

/-- Where a library fails on some bytes: while it opens them, or while it draws the picture that it has
opened in the size that fits into the box. -/
inductive Fails (g : Imaging) (box : Box) (b : ByteArray) (f : Picture.Fault) : Prop where
  | opening (h : g.opened b = .error f)
  | drawing {i : Image} {r : Int × Int} (hi : g.opened b = .ok i) (hw : 0 < i.width)
      (hh : 0 < i.height) (hfit : fit i.width i.height box.width box.height = .ok r)
      (h : g.redrawn i r.1.toNat r.2.toNat = .error f)

section Making
variable {g : Imaging} {w : Surroundings} {s : Source} {box : Box} {b : ByteArray} {i : Image}
  {e : Failure}

/-- For a box with sides, every picture that is opened can be fitted into it. -/
theorem exists_fit_of_opened (hg : g.IsSound) (hi : g.opened b = .ok i) (hw : 0 < i.width)
    (hh : 0 < i.height) (hbw : 0 < box.width) (hbh : 0 < box.height) :
    ∃ r, fit i.width i.height box.width box.height = .ok r := by
  have hlimit : Picture.pixelLimit < 2 ^ 53 := by decide
  have hpixels := hg.pixels_of_opened hi
  have hwidth : i.width ≤ i.width * i.height := Nat.le_mul_of_pos_right _ hh
  have hheight : i.height ≤ i.width * i.height := Nat.le_mul_of_pos_left _ hw
  exact exists_fit (by omega) (by omega) (by omega) (by omega) hbw hbh

theorem ofImage_eq_error_iff (hg : g.IsSound) (hi : g.opened b = .ok i) (hbw : 0 < box.width)
    (hbh : 0 < box.height) : ofImage g box i = .error e ↔ ∃ r f, 0 < i.width ∧ 0 < i.height ∧
      fit i.width i.height box.width box.height = .ok r ∧
        g.redrawn i r.1.toNat r.2.toNat = .error f ∧ e = .picture f := by
  unfold ofImage
  split
  · next hnone =>
    refine iff_of_false (fun h => by cases h) ?_
    rintro ⟨r, f, hw, hh, -⟩
    simp only [Bool.or_eq_true, decide_eq_true_eq] at hnone
    omega
  · next hsides =>
    simp only [Bool.or_eq_true, decide_eq_true_eq, not_or] at hsides
    have hw := Nat.pos_of_ne_zero hsides.1
    have hh := Nat.pos_of_ne_zero hsides.2
    obtain ⟨r, hr⟩ := exists_fit_of_opened hg hi hw hh hbw hbh
    simp only [hr, bind, Except.bind, pure, Except.pure, Except.ok.injEq, exists_and_left,
      exists_eq_left', hw, hh, true_and]
    rw [← ofLibrary_eq_error_iff]
    cases ofLibrary (g.redrawn i r.1.toNat r.2.toNat) <;> simp

theorem made_eq_error_iff (hg : g.IsSound) (hbw : 0 < box.width) (hbh : 0 < box.height) :
    ofLibrary (g.opened b) >>= ofImage g box = .error e ↔
      ∃ f, Fails g box b f ∧ e = .picture f := by
  cases hopened : g.opened b with
  | error f =>
    have hfails : ∀ d, Fails g box b d ↔ d = f := fun d => by
      constructor
      · rintro (h | ⟨hi, -⟩)
        · exact (Except.error.inj (hopened.symm.trans h)).symm
        · cases hopened.symm.trans hi
      · rintro rfl
        exact .opening hopened
    simp [hfails, ofLibrary, Except.mapError, bind, Except.bind, eq_comm]
  | ok i =>
    have hbind : ofLibrary (.ok i) >>= ofImage g box = ofImage g box i := rfl
    rw [hbind, ofImage_eq_error_iff hg hopened hbw hbh]
    constructor
    · rintro ⟨r, f, hw, hh, hfit, hf, rfl⟩
      exact ⟨f, .drawing hopened hw hh hfit hf, rfl⟩
    · rintro ⟨f, h | ⟨hi, hw, hh, hfit, hf⟩, rfl⟩
      · cases hopened.symm.trans h
      · obtain rfl := Except.ok.inj (hopened.symm.trans hi)
        exact ⟨_, f, hw, hh, hfit, hf, rfl⟩

/-- A failure that is told is a fault of the library that is not expected. -/
theorem process_eq_error_iff_fails (hg : g.IsSound) (hbw : 0 < box.width) (hbh : 0 < box.height) :
    process g w s box = .error e ↔ ∃ b f, s.bytes? w = some b ∧ Fails g box b f ∧
      f.isQuiet = false ∧ e = .picture f := by
  unfold process
  cases hb : s.bytes? w with
  | none => simp
  | some b =>
    simp only [Option.some.injEq, exists_and_left, exists_eq_left']
    have herror := fun d => made_eq_error_iff (b := b) (e := d) hg hbw hbh
    cases hmade : ofLibrary (g.opened b) >>= ofImage g box with
    | ok r =>
      refine iff_of_false (fun h => by cases h) ?_
      rintro ⟨f, hf, -⟩
      cases hmade.symm.trans ((herror _).2 ⟨f, hf, rfl⟩)
    | error d =>
      obtain ⟨f, hf, rfl⟩ := (herror d).1 hmade
      have honly : ∀ k, Fails g box b k → k = f := fun k hk =>
        Failure.picture.inj (Except.error.inj (((herror _).2 ⟨k, hk, rfl⟩).symm.trans hmade))
      cases hquiet : f.isQuiet with
      | true =>
        refine iff_of_false (fun h => by simp [isQuiet, hquiet] at h) ?_
        rintro ⟨k, hk, hloud, -⟩
        rw [honly k hk, hquiet] at hloud
        cases hloud
      | false =>
        simp only [isQuiet, hquiet, Bool.false_eq_true, if_false, Except.error.injEq]
        constructor
        · rintro rfl
          exact ⟨f, hf, hquiet, rfl⟩
        · rintro ⟨k, hk, -, rfl⟩
          rw [honly k hk]

end Making

/-- For a box with sides, making a logo fails exactly where the library fails on the bytes of the source
with a fault that is not expected, and with that fault; everywhere else there is a logo or none. So a
library that does not open what announces too many points makes it fail there. -/
theorem process_eq_error_iff {g : Imaging} (hg : g.IsSound) {announced? : ByteArray → Option Nat}
    (hguards : g.Guards announced?) (w : Surroundings) (s : Source) {box : Box}
    (hbw : 0 < box.width) (hbh : 0 < box.height) :
    (∀ e, process g w s box = .error e ↔ ∃ b f, s.bytes? w = some b ∧ Fails g box b f ∧
      f.isQuiet = false ∧ e = .picture f) ∧
    ((∃ r, process g w s box = .ok r) ↔
      ∀ b f, s.bytes? w = some b → Fails g box b f → f.isQuiet = true) ∧
    ∀ b n, s.bytes? w = some b → announced? b = some n → Picture.pixelLimit < n →
      process g w s box = .error (.picture (.tooLarge n)) := by
  have hfails := fun e => process_eq_error_iff_fails (w := w) (s := s) (e := e) hg hbw hbh
  refine ⟨hfails, ?_, fun b n hb hn hlimit => ?_⟩
  · cases hmade : process g w s box with
    | ok r =>
      refine iff_of_true ⟨r, rfl⟩ fun b f hb hf => ?_
      by_contra hloud
      cases hmade.symm.trans ((hfails _).2 ⟨b, f, hb, hf, by simpa using hloud, rfl⟩)
    | error e =>
      obtain ⟨b, f, hb, hf, hloud, -⟩ := (hfails e).1 hmade
      refine iff_of_false (fun ⟨r, hr⟩ => by cases hr) fun h => ?_
      rw [h b f hb hf] at hloud
      cases hloud
  · refine (hfails _).2 ⟨b, .tooLarge n, hb, .opening ?_, rfl, rfl⟩
    rw [Imaging.opened, hguards b n hn hlimit]
    rfl

def bitmap (low high : UInt8) : ByteArray :=
  Bytes.ofList [0x42, 0x4D, 30, 0, 0, 0, 0, 0, 0, 0, 26, 0, 0, 0, 12, 0, 0, 0, low, high, low, high,
    1, 0, 24, 0, 0, 0, 0xFF, 0]

theorem process_eq_error_iff_bitmap :
    (0 < Box.usual.width ∧ 0 < Box.usual.height) ∧
      (∃ r, process .plain {} (.bytes (bitmap 1 0)) Box.usual = .ok r) ∧
      process .plain {} (.bytes (bitmap 0xFF 0xFF)) Box.usual =
        .error (.picture (.tooLarge 4294836225)) := by
  have hw : 0 < Box.usual.width := by decide
  have hh : 0 < Box.usual.height := by decide
  have hfailing := fun s => process_eq_error_iff Imaging.isSound_plain Imaging.guards_plain {} s hw hh
  refine ⟨⟨hw, hh⟩, (hfailing _).2.1.2 fun b f hb hf => ?_, (hfailing _).2.2 _ _ rfl ?_ ?_⟩
  · -- The picture of one point is opened and drawn without any fault.
    obtain rfl : bitmap 1 0 = b := Option.some.inj hb
    have hmade : process .plain {} (.bytes (bitmap 1 0)) Box.usual ≠ .error (.picture f) := by
      have hok : (process .plain {} (.bytes (bitmap 1 0)) Box.usual).isOk = true := by rfl
      intro h
      rw [h] at hok
      cases hok
    by_contra hloud
    exact hmade (((hfailing _).1 _).2 ⟨_, f, rfl, hf, by simpa using hloud, rfl⟩)
  · decide +kernel
  · decide

/-- With 65535 points a side the file has no logo, and it is not told that there is none. -/
theorem process_bitmap_vast :
    process .plain {} (.bytes (bitmap 0xFF 0xFF)) Box.usual =
      .error (.picture (.tooLarge 4294836225)) := by
  rfl

end Letterhead.Logo
