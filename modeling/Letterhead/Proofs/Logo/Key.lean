import Letterhead.Logo.Cache
import Letterhead.Proofs.Number.Numeral
import Letterhead.Proofs.Text.Lines
import Letterhead.Proofs.Text.Octets
import Letterhead.Proofs.Text.Script

/-! Keys of the cache of logos. As long as no two digests of different bytes are equal, a key tells the
box and the bytes that the source was digested as. -/
namespace Letterhead.Logo

/-- No two of some bytes have the same digest without being the same. -/
def NoCollision (ms : List ByteArray) : Prop :=
  ∀ a ∈ ms, ∀ b ∈ ms, Sha256.text a = Sha256.text b → a = b

theorem NoCollision.mono {ms ns : List ByteArray} (h : NoCollision ns) (hs : ms ⊆ ns) :
    NoCollision ms :=
  fun _ ha _ hb => h _ (hs ha) _ (hs hb)

theorem not_mem_intText {c : Char} (hminus : c ≠ '-') (hdigit : c.isDigit = false) (n : Int) :
    c ∉ intText n := fun h => by
  rcases mem_intText h with h | h
  · exact hminus h
  · rw [hdigit] at h
    cases h

theorem keyText_injective {m m' : ByteArray} {box box' : Box} (h : keyText m box = keyText m' box') :
    Sha256.text m = Sha256.text m' ∧ box = box' := by
  have hbar : ∀ b : Box, '|' ∉ intText b.width ++ 'x' :: intText b.height := fun b hmem => by
    rcases List.mem_append.1 hmem with hmem | hmem
    · exact not_mem_intText (by decide) (by decide) _ hmem
    · rcases List.mem_cons.1 hmem with hmem | hmem
      · cases hmem
      · exact not_mem_intText (by decide) (by decide) _ hmem
  have hcross : ∀ b : Box, 'x' ∉ intText b.height := fun b =>
    not_mem_intText (by decide) (by decide) _
  simp only [keyText, List.append_assoc, List.cons_append] at h
  have hsides := Text.eq_of_append_cons_eq (hbar box) (hbar box') h
  have hheight := Text.eq_of_append_cons_eq (hcross box) (hcross box') hsides
  rw [hsides] at h
  rw [hheight] at hsides
  have hwidth := intText_injective (List.append_cancel_right hsides)
  refine ⟨List.append_cancel_right h, ?_⟩
  obtain ⟨width, height⟩ := box
  obtain ⟨width', height'⟩ := box'
  exact congr (congrArg Box.mk hwidth) (intText_injective hheight)

/-- Two sources of one kind that are not told apart: the same bytes, or texts that differ in the blanks
around them. -/
def Source.IsSame : Source → Source → Prop
  | bytes a, bytes b => a = b
  | text s, text t => s.trim = t.trim
  | _, _ => False

/-- Two sources of which one is a text and the other one the bytes of that text. -/
def Source.Crosses : Source → Source → Prop
  | text s, bytes b | bytes b, text s => s.trim.text?.map Text.utf8 = some b
  | _, _ => False

/-- A source that has bytes to be digested: its text holds no half of a character. -/
def Source.IsWritable (s : Source) : Prop := s.material?.isSome = true

instance : DecidablePred Source.IsWritable := fun s =>
  inferInstanceAs (Decidable (s.material?.isSome = true))

def Source.SharesMaterial (s s' : Source) : Prop :=
  ∃ m, s.material? = some m ∧ s'.material? = some m

theorem Source.sharesMaterial_iff {s s' : Source} :
    s.SharesMaterial s' ↔ s.IsSame s' ∧ s.IsWritable ∨ s.Crosses s' := by
  cases s with
  | bytes a =>
    cases s' with
    | bytes b => simpa [SharesMaterial, IsWritable, material?, IsSame, Crosses] using eq_comm
    | text t => simp [SharesMaterial, IsWritable, material?, IsSame, Crosses]
  | text t =>
    cases s' with
    | bytes b => simp [SharesMaterial, material?, IsSame, Crosses]
    | text t' =>
      simp only [SharesMaterial, IsWritable, material?, IsSame, Crosses, or_false]
      constructor
      · rintro ⟨m, hm, hm'⟩
        obtain ⟨u, hu, rfl⟩ := Option.map_eq_some_iff.1 hm
        obtain ⟨u', hu', heq⟩ := Option.map_eq_some_iff.1 hm'
        rw [Script.text?_eq_some_iff] at hu hu'
        exact ⟨by rw [hu, hu', Text.utf8_injective heq], by simp [hm]⟩
      · rintro ⟨ht, hsome⟩
        obtain ⟨m, hm⟩ := Option.isSome_iff_exists.1 hsome
        exact ⟨m, hm, by rw [← ht, hm]⟩

/-- A source whose text holds the bytes of a picture. -/
def Source.IsInline : Source → Prop
  | bytes _ => False
  | text s => s.trim.startsWith "data:image" = true

instance : DecidablePred Source.IsInline
  | .bytes _ => inferInstanceAs (Decidable False)
  | .text _ => inferInstanceAs (Decidable (_ = true))

/-- Sources of one kind that are not told apart have the same bytes. -/
theorem Source.IsSame.bytes?_eq {s s' : Source} (h : s.IsSame s') (w : Surroundings) :
    s.bytes? w = s'.bytes? w := by
  cases s with
  | bytes a =>
    cases s' with
    | bytes b => rw [show a = b from h]
    | text t => cases h
  | text t =>
    cases s' with
    | bytes b => cases h
    | text t' =>
      have ht : t.trim = t'.trim := h
      simp only [bytes?, bytesOfText?, ht]

/-- What a text holds does not depend on what can be reached. -/
theorem Source.IsInline.bytes?_eq {s : Source} (h : s.IsInline) (w w' : Surroundings) :
    s.bytes? w = s.bytes? w' := by
  cases s with
  | bytes b => cases h
  | text t =>
    have ht : t.trim.startsWith "data:image" = true := h
    simp only [bytes?, bytesOfText?, ht, if_true]

theorem Source.IsInline.not_crosses {s s' : Source} (h : s.IsInline) (h' : s'.IsInline) :
    ¬ s.Crosses s' := by
  cases s with
  | bytes b => cases h
  | text t =>
    cases s' with
    | bytes b => cases h'
    | text t' => exact id

theorem process_eq_of_bytes?_eq {g : Imaging} {w w' : Surroundings} {s s' : Source} {box : Box}
    (h : s.bytes? w = s'.bytes? w') : process g w s box = process g w' s' box := by
  simp only [process, h]

end Letterhead.Logo
