import Letterhead.Proofs.Branding.Leaf
import Letterhead.Proofs.Failure

/-! Layers laid one over the other: each leaf has the value that the last layer with a value for it
gives, as its reader reads it. -/
namespace Letterhead

namespace Leaf
variable {leaf : Leaf}

def lastGiven? (leaf : Leaf) (layers : List BrandingLayer) : Option Json :=
  layers.reverse.findSome? leaf.given?

theorem lastGiven?_concat (layers : List BrandingLayer) (l : BrandingLayer) :
    leaf.lastGiven? (layers ++ [l]) = (leaf.given? l).or (leaf.lastGiven? layers) := by
  simp only [lastGiven?, List.reverse_append, List.reverse_singleton, List.singleton_append,
    List.findSome?_cons]
  cases leaf.given? l <;> rfl

theorem rel_imp {α β : Type} {r s : α → β → Prop} {o : Option α} {o' : Option β}
    (h : Option.Rel r o o') (hrs : ∀ a b, r a b → s a b) : Option.Rel s o o' := by
  cases h with
  | none => exact .none
  | some hab => exact .some (hrs _ _ hab)

/-- A layer sets the leaves that it gives something for, each to a value that is read as what it
gives. -/
theorem new?_of_toPatch {l : BrandingLayer} {p : BrandingPatch} (h : l.toPatch = .ok p) :
    Option.Rel (fun v a => leaf.read v = leaf.read (leaf.write a)) (leaf.given? l)
      (leaf.new? p) := by
  have hunset : leaf.new? {} = none := by
    cases leaf <;> rfl
  cases l with
  | empty =>
    cases h
    exact hunset ▸ .none
  | patch q =>
    cases h
    cases hnew : leaf.new? p with
    | none => simp [given?, hnew]
    | some a => simp [given?, hnew]
  | raw v =>
    cases v with
    | null =>
      cases h
      exact hunset ▸ .none
    | object fields =>
      have hread : BrandingPatch.read (.object (Json.dropNullFields fields)) = .ok p := by
        simp only [BrandingLayer.toPatch, Json.dropNulls] at h
        split at h
        · next q hq =>
          cases h
          exact hq
        · cases h
      have hrel := new?_of_read hread leaf
      rw [held?_dropNullFields] at hrel
      exact rel_imp hrel fun _ _ hvalue => hvalue.trans (read_write_of_read hvalue).symm
    | _ => cases h

/-- The default of a leaf is read again as it is written. -/
theorem read_write_default (leaf : Leaf) :
    leaf.read (leaf.write (leaf.value {})) = .ok (leaf.value {}) := by
  cases leaf <;> rfl

theorem read_write_of_new? {v : Json} {p : BrandingPatch} (h : BrandingPatch.read v = .ok p)
    {a : leaf.Value} (ha : leaf.new? p = some a) : leaf.read (leaf.write a) = .ok a := by
  obtain ⟨fields, rfl, -⟩ := Form.record_ok_iff.1 h
  have hnew := new?_of_read h leaf
  rw [ha] at hnew
  generalize leaf.held? Json.under? fields = held at hnew
  cases hnew with
  | some hread => exact read_write_of_read hread

end Leaf

namespace Branding

theorem overlay_concat (b : Branding) (layers : List BrandingLayer) (l : BrandingLayer) :
    overlay b (layers ++ [l]) =
      overlay b layers >>= fun c => l.toPatch.map fun p => p.apply c := by
  simp [overlay]

theorem exists_overlay (b : Branding) {layers : List BrandingLayer}
    (h : ∀ l ∈ layers, ∃ p, l.toPatch = .ok p) : ∃ c, overlay b layers = .ok c := by
  induction layers using List.reverseRecOn with
  | nil => exact ⟨b, rfl⟩
  | append_singleton layers l ih =>
    obtain ⟨c, hc⟩ := ih fun m hm => h m (by simp [hm])
    obtain ⟨p, hp⟩ := h l (by simp)
    exact ⟨p.apply c, by rw [overlay_concat, hc, hp]; rfl⟩

/-- Laid over a branding, layers leave in each leaf what the last of them gives for it, and else
what was there. -/
theorem value_overlay {b c : Branding} {layers : List BrandingLayer}
    (h : overlay b layers = .ok c) (leaf : Leaf) :
    match leaf.lastGiven? layers with
    | some v => leaf.read v = leaf.read (leaf.write (leaf.value c))
    | none => leaf.value c = leaf.value b := by
  induction layers using List.reverseRecOn generalizing c with
  | nil =>
    cases h
    rfl
  | append_singleton layers l ih =>
    rw [overlay_concat] at h
    cases hd : overlay b layers with
    | error f => rw [hd] at h; cases h
    | ok d =>
      rw [hd] at h
      cases hp : l.toPatch with
      | error f => rw [hp] at h; cases h
      | ok p =>
        rw [hp] at h
        cases h
        have hnew := leaf.new?_of_toPatch hp
        rw [Leaf.lastGiven?_concat, Leaf.value_apply]
        generalize leaf.given? l = given at hnew ⊢
        generalize leaf.new? p = new at hnew ⊢
        cases hnew with
        | none => exact ih hd
        | some hvalue => exact hvalue

/-- A branding is read again leaf by leaf. -/
theorem exists_reread (b : Branding) :
    ∃ c, b.reread = .ok c ∧
      ∀ leaf : Leaf, leaf.read (leaf.write (leaf.value b)) = .ok (leaf.value c) := by
  refine ⟨{
    enabled := b.enabled
    logo := Text.trim b.logo
    organization := Text.trim b.organization
    primary := Colour.ofJson (.text b.primary.text)
    font := _
    header := b.header
    footer := b.footer }, rfl, fun leaf => ?_⟩
  cases leaf <;> rfl

/-- A merged branding has in each leaf what the last layer gives for it, as that is read, and else
the default. -/
theorem value_of_merge_eq_ok {layers : List BrandingLayer} {b : Branding} (h : merge layers = .ok b)
    (leaf : Leaf) :
    match leaf.lastGiven? layers with
    | some v => leaf.read v = .ok (leaf.value b)
    | none => leaf.value b = leaf.value {} := by
  obtain ⟨c, hc, hb⟩ := exists_of_bind_eq_ok h
  obtain ⟨d, hd, hread⟩ := exists_reread c
  obtain rfl : d = b := Except.ok.inj (hd.symm.trans hb)
  have hvalue := value_overlay hc leaf
  cases hlast : leaf.lastGiven? layers with
  | some v =>
    rw [hlast] at hvalue
    exact hvalue.trans (hread leaf)
  | none =>
    rw [hlast] at hvalue
    have hsame := hread leaf
    rw [hvalue, leaf.read_write_default] at hsame
    exact (Checked.ok.inj hsame).symm

/-- Layers merge exactly when each of them can be read. -/
theorem exists_merge_iff {layers : List BrandingLayer} :
    (∃ b, merge layers = .ok b) ↔ ∀ l ∈ layers, ∃ p, l.toPatch = .ok p := by
  constructor
  · rintro ⟨b, hb⟩
    obtain ⟨c, hc, -⟩ := exists_of_bind_eq_ok hb
    clear hb
    induction layers using List.reverseRecOn generalizing c with
    | nil => exact fun l hl => by cases hl
    | append_singleton layers l ih =>
      rw [overlay_concat] at hc
      obtain ⟨d, hd, hl⟩ := exists_of_bind_eq_ok hc
      refine List.forall_mem_append.2 ⟨ih d hd, List.forall_mem_singleton.2 ?_⟩
      cases hp : l.toPatch with
      | error e =>
        rw [hp] at hl
        cases hl
      | ok p => exact ⟨p, rfl⟩
  · intro h
    obtain ⟨c, hc⟩ := exists_overlay {} h
    obtain ⟨b, hb, -⟩ := exists_reread c
    exact ⟨b, by rw [merge, hc]; exact hb⟩

theorem failsOnly_merge {P : Failure → Prop} {layers : List BrandingLayer}
    (h : ∀ l ∈ layers, FailsOnly P l.toPatch) : FailsOnly P (merge layers) := by
  have hoverlay : ∀ b, FailsOnly P (overlay b layers) := by
    intro b
    induction layers generalizing b with
    | nil => exact failsOnly_ok b
    | cons l layers ih =>
      obtain ⟨hl, hlayers⟩ := List.forall_mem_cons.1 h
      exact hl.map.bind fun c _ => ih hlayers c
  refine (hoverlay {}).bind fun c _ => ?_
  obtain ⟨b, hb, -⟩ := exists_reread c
  rw [hb]
  exact failsOnly_ok b

/-- A branding that was put together from settings that were read is read again as it is. -/
theorem reread_of_read {v : Json} {p : BrandingPatch} (h : BrandingPatch.read v = .ok p) :
    (p.apply {}).reread = .ok (p.apply {}) := by
  obtain ⟨c, hc, hleaf⟩ := exists_reread (p.apply {})
  have hsame : c = p.apply {} := by
    refine Leaf.ext fun leaf => Checked.ok.inj ((hleaf leaf).symm.trans ?_)
    rw [Leaf.value_apply]
    cases hnew : leaf.new? p with
    | none => exact leaf.read_write_default
    | some a => exact Leaf.read_write_of_new? h hnew
  rw [hc, hsame]

/-- Layers that are all valid merge into a branding each leaf of which is what the last layer gives
for it, as that is read, and else the default. A branding that was read and is merged with itself
stays as it is. -/
theorem value_merge :
    (∀ layers : List BrandingLayer, (∀ l ∈ layers, ∃ p, l.toPatch = .ok p) →
      ∃ b, merge layers = .ok b ∧ ∀ leaf : Leaf,
        match leaf.lastGiven? layers with
        | some v => leaf.read v = .ok (leaf.value b)
        | none => leaf.value b = leaf.value {}) ∧
    ∀ v p, BrandingPatch.read v = .ok p →
      merge [.patch p, .patch p] = .ok (p.apply {}) := by
  constructor
  · intro layers hlayers
    obtain ⟨b, hb⟩ := exists_merge_iff.2 hlayers
    exact ⟨b, hb, value_of_merge_eq_ok hb⟩
  · intro v p hread
    have htwice : p.apply (p.apply {}) = p.apply {} := by
      refine Leaf.ext fun leaf => ?_
      rw [Leaf.value_apply, Leaf.value_apply]
      cases leaf.new? p <;> rfl
    have hoverlay : overlay {} [.patch p, .patch p] = .ok (p.apply (p.apply {})) := rfl
    rw [merge, hoverlay, htwice]
    exact reread_of_read hread

def lowerLayer : BrandingLayer :=
  .raw (.object [("primaryColor".toList, .str " #ABC "),
    ("header".toList, .object [("content".toList, .str "Top")])])

def upperLayer : BrandingLayer :=
  .raw (.object [("primary_color".toList, .null),
    ("header".toList, .object [("content".toList, .null), ("enabled".toList, .bool false)])])

/-- What the upper layer has null for is kept from the lower one, and a branding that is switched on
and merged with itself stays on. -/
theorem value_merge_twoLayers :
    (∃ b, merge [lowerLayer, upperLayer] = .ok b ∧ b.primary = ⟨170, 187, 204⟩ ∧
      b.header.enabled = false ∧ b.header.content = "Top".toList ∧ b.logo = []) ∧
    merge [.patch { enabled := some true }, .patch { enabled := some true }] =
      .ok { enabled := true } := by
  have hlayers : ∀ l ∈ [lowerLayer, upperLayer], ∃ p, l.toPatch = .ok p := by
    intro l hl
    rcases List.mem_pair.1 hl with rfl | rfl
    · exact ⟨_, rfl⟩
    · exact ⟨_, rfl⟩
  obtain ⟨b, hb, hleaf⟩ := value_merge.1 _ hlayers
  have hprimary : Form.colour (.text " #ABC ".toList) = .ok b.primary := hleaf .primary
  have henabled : Form.bool (.bool false) = .ok b.header.enabled := hleaf .headerEnabled
  have hcontent : Form.text (.text "Top".toList) = .ok b.header.content := hleaf .headerContent
  have hlogo : b.logo = [] := hleaf .logo
  have hcolour : Colour.ofJson (.text " #ABC ".toList) = ⟨170, 187, 204⟩ := by decide
  have hread : BrandingPatch.read (.object [("enabled".toList, .bool true)]) =
      .ok { enabled := some true } := rfl
  exact ⟨⟨b, hb, (Checked.ok.inj hprimary).symm.trans hcolour, (Checked.ok.inj henabled).symm,
    (Checked.ok.inj hcontent).symm, hlogo⟩, value_merge.2 _ _ hread⟩

end Branding
end Letterhead
