import Letterhead.Proofs.Logo.Cache

/-! Which calls for logos share an entry of the cache. Sources of one kind share one only if they are the
same, and so calls whose texts hold their pictures are never told apart by the cache. A text shares its
entry with its own bytes, though, which are another picture, or none; and a text that holds half of a
character has no entry at all, although its logo could be made. -/
namespace Letterhead.Logo

/-- No digests collide among the sources of calls, nor among the keys of calls. -/
structure CollisionFree (ds : List Load) : Prop where
  sources : NoCollision (ds.filterMap fun d => d.source.material?)
  keys : NoCollision (ds.filterMap fun d =>
    d.source.material?.map fun m => Text.utf8 (keyText m d.box))

section Calls
variable {g : Imaging} {ds : List Load}

theorem sharesKey_iff (h : CollisionFree ds) {e d : Load} (he : e ∈ ds) (hd : d ∈ ds) :
    e.SharesKey d ↔ e.box = d.box ∧ e.source.SharesMaterial d.source := by
  constructor
  · rintro ⟨key, hekey, hdkey⟩
    obtain ⟨m, hm, rfl⟩ := Option.map_eq_some_iff.1 hekey
    obtain ⟨m', hm', heq⟩ := Option.map_eq_some_iff.1 hdkey
    have hmem : m ∈ ds.filterMap fun d => d.source.material? := List.mem_filterMap.2 ⟨e, he, hm⟩
    have hmem' : m' ∈ ds.filterMap fun d => d.source.material? :=
      List.mem_filterMap.2 ⟨d, hd, hm'⟩
    have hbytes := h.keys _ (List.mem_filterMap.2 ⟨e, he, by rw [hm]; rfl⟩) _
      (List.mem_filterMap.2 ⟨d, hd, by rw [hm']; rfl⟩) heq.symm
    obtain ⟨hdigest, hbox⟩ := keyText_injective (Text.utf8_injective hbytes)
    obtain rfl := h.sources _ hmem _ hmem' hdigest
    exact ⟨hbox, m, hm, hm'⟩
  · rintro ⟨hbox, m, hm, hm'⟩
    refine ⟨Sha256.text (Text.utf8 (keyText m e.box)), ?_, ?_⟩
    · exact Option.map_eq_some_iff.2 ⟨m, hm, rfl⟩
    · rw [hbox]
      exact Option.map_eq_some_iff.2 ⟨m, hm', rfl⟩

theorem made_ne_halfCharacter (d : Load) : d.made g ≠ .error .halfCharacter :=
  fun h => failsOnly_process g d.surroundings d.source d.box _ h

/-- Calls for texts that hold their pictures give what each of them gives alone, whatever calls went
before and whichever of them could be kept; and so the same text and box always give the same. This is
what is made of the texts exactly when none of them holds half of a character: such a call fails. -/
theorem outcomes_of_inline (hg : g.IsSound) (h : CollisionFree ds)
    (hinline : ∀ d ∈ ds, d.source.IsInline) :
    Cache.outcomes g {} ds = ds.map (Load.alone g) ∧
      (Cache.outcomes g {} ds = ds.map (Load.made g) ↔ ∀ d ∈ ds, d.source.IsWritable) ∧
      ∀ p ∈ ds.zip (Cache.outcomes g {} ds), ∀ q ∈ ds.zip (Cache.outcomes g {} ds),
        p.1.source = q.1.source → p.1.box = q.1.box → p.2 = q.2 := by
  have hmade : ∀ e ∈ ds, ∀ d ∈ ds, e.box = d.box → e.source.IsSame d.source →
      e.made g = d.made g := by
    intro e he d hd hbox hsame
    rw [Load.made, Load.made, hbox]
    exact process_eq_of_bytes?_eq
      ((hsame.bytes?_eq _).trans ((hinline d hd).bytes?_eq _ _))
  have hall : Cache.outcomes g {} ds = ds.map (Load.alone g) := by
    refine (Cache.outcomes_eq_map_alone_iff hg ds).2 (List.pairwise_of_forall_mem_list ?_)
    intro e he d hd hshares l hk
    obtain ⟨hbox, hmaterial⟩ := (sharesKey_iff h he hd).1 hshares
    rcases Source.sharesMaterial_iff.1 hmaterial with ⟨hsame, -⟩ | hcross
    · rw [← hmade e he d hd hbox hsame]
      exact (Load.kept?_eq_some_iff.1 hk).2
    · exact absurd hcross ((hinline e he).not_crosses (hinline d hd))
  refine ⟨hall, ?_, ?_⟩
  · rw [hall, List.map_inj_left]
    refine forall₂_congr fun d hd => ?_
    unfold Load.alone
    split
    · next hwritable => exact iff_of_true rfl hwritable
    · next hhalf => exact iff_of_false (made_ne_halfCharacter d).symm hhalf
  · rw [hall, ← List.map_prod_left_eq_zip]
    intro p hp q hq hsource hbox
    obtain ⟨e, he, rfl⟩ := List.mem_map.1 hp
    obtain ⟨d, hd, rfl⟩ := List.mem_map.1 hq
    have hsame : e.source.IsSame d.source := by
      have hrefl : ∀ s : Source, s.IsSame s := fun s => by cases s <;> rfl
      rw [show e.source = d.source from hsource]
      exact hrefl _
    rw [Load.alone, Load.alone, hmade e he d hd hbox hsame, show e.source = d.source from hsource]

end Calls

def pointAddress : Text :=
  "data:image/bmp;base64,Qk0eAAAAAAAAABoAAAAMAAAAAQABAAEAGAD///8A".toList

def bareAddress : Text := "data:image/png;base64,".toList

theorem noCollision_pair {a b : ByteArray} (h : Sha256.text a ≠ Sha256.text b) :
    NoCollision [a, b] := by
  intro x hx y hy he
  simp only [List.mem_cons, List.not_mem_nil, or_false] at hx hy
  rcases hx with rfl | rfl <;> rcases hy with rfl | rfl
  · rfl
  · exact absurd he h
  · exact absurd he.symm h
  · rfl

def Source.ofText (t : Text) : Source := .text (Script.ofText t)

theorem Source.material?_ofText (t : Text) :
    (ofText t).material? = some (Text.utf8 (Text.trim t)) := by
  rw [ofText, material?, Script.trim_ofText, Script.text?_ofText, Option.map_some]

theorem material?_addresses :
    (Source.ofText pointAddress).material? = some (Text.utf8 pointAddress) ∧
      (Source.ofText (' ' :: pointAddress)).material? = some (Text.utf8 pointAddress) ∧
      (Source.ofText bareAddress).material? = some (Text.utf8 bareAddress) := by
  have htrim : Text.trim pointAddress = pointAddress ∧
      Text.trim (' ' :: pointAddress) = pointAddress ∧ Text.trim bareAddress = bareAddress := by
    decide +kernel
  simp only [Source.material?_ofText, htrim, and_self]

theorem digest_pointAddress : Sha256.text (Text.utf8 pointAddress) =
    "bd0aa24a6e38dcb9b6443b2a69cd0466a49ecb7a4f5b5938e1eabcdf37e28b49".toList := by
  decide +kernel

theorem digest_bareAddress : Sha256.text (Text.utf8 bareAddress) =
    "8e726a09c196f96bcf104fd83a6a6278c5ccca1c0b841dd8ecef621b87acf56a".toList := by
  decide +kernel

theorem noCollision_addresses :
    NoCollision [Text.utf8 pointAddress, Text.utf8 bareAddress] ∧
      NoCollision [Text.utf8 (keyText (Text.utf8 pointAddress) .usual),
        Text.utf8 (keyText (Text.utf8 bareAddress) .usual)] := by
  refine ⟨noCollision_pair ?_, noCollision_pair ?_⟩
  · rw [digest_pointAddress, digest_bareAddress]
    decide
  · rw [keyText, keyText, digest_pointAddress, digest_bareAddress]
    decide +kernel

theorem collisionFree_of_addresses {ds : List Load} (hbox : ∀ d ∈ ds, d.box = .usual)
    (hsource : ∀ d ∈ ds, ∀ m, d.source.material? = some m →
      m = Text.utf8 pointAddress ∨ m = Text.utf8 bareAddress) : CollisionFree ds := by
  constructor
  · refine noCollision_addresses.1.mono fun m hm => ?_
    obtain ⟨d, hd, hm⟩ := List.mem_filterMap.1 hm
    simpa using hsource d hd m hm
  · refine noCollision_addresses.2.mono fun k hk => ?_
    obtain ⟨d, hd, hk⟩ := List.mem_filterMap.1 hk
    obtain ⟨m, hm, rfl⟩ := Option.map_eq_some_iff.1 hk
    simp only [List.mem_cons, List.not_mem_nil, or_false, hbox d hd]
    exact (hsource d hd m hm).imp (fun h => by rw [h]) (fun h => by rw [h])

def addressLoads : List Load := [
  { surroundings := {}, source := .ofText pointAddress, box := .usual, writable := false },
  { surroundings := {}, source := .ofText bareAddress, box := .usual },
  { surroundings := {}, source := .ofText pointAddress, box := .usual },
  { surroundings := {}, source := .ofText (' ' :: pointAddress), box := .usual }]

theorem outcomes_of_inline_addressLoads :
    CollisionFree addressLoads ∧ (∀ d ∈ addressLoads, d.source.IsInline) ∧
      Cache.outcomes .plain {} addressLoads = addressLoads.map (Load.made .plain) := by
  have hfree : CollisionFree addressLoads := by
    refine collisionFree_of_addresses (by simp [addressLoads]) ?_
    simp [addressLoads, material?_addresses]
  have hinline : ∀ d ∈ addressLoads, d.source.IsInline := by
    simp only [addressLoads, List.forall_mem_cons, List.not_mem_nil, false_implies, implies_true]
    decide +kernel
  refine ⟨hfree, hinline, (outcomes_of_inline Imaging.isSound_plain hfree hinline).2.1.2 ?_⟩
  simp [addressLoads, Source.IsWritable, material?_addresses]

def halvedLoad : Load :=
  { surroundings := {}, source := .text (Script.ofText bareAddress ++ [.half 0]), box := .usual }

/-- There is no logo to be made of half of a character, and asking for it through the cache fails. -/
theorem outcomes_halvedLoad :
    CollisionFree [halvedLoad] ∧ halvedLoad.source.IsInline ∧
      [halvedLoad].map (Load.made .plain) = [.ok none] ∧
      Cache.outcomes .plain {} [halvedLoad] = [.error .halfCharacter] := by
  have hkey : halvedLoad.source.material? = none := by decide +kernel
  refine ⟨collisionFree_of_addresses (by simp [halvedLoad]) ?_, by decide +kernel, rfl, rfl⟩
  simp [hkey]

section Calls
variable {g : Imaging} {ds : List Load} {w : Surroundings}

/-- Calls share an entry exactly when they have the same box and the same source, or one has the bytes
of the text of the other one. -/
theorem entries_isolated (hg : g.IsSound) (h : CollisionFree ds)
    (hw : ∀ d ∈ ds, d.surroundings = w) :
    (∀ e ∈ ds, ∀ d ∈ ds, e.SharesKey d ↔ e.box = d.box ∧
      (e.source.IsSame d.source ∧ e.source.IsWritable ∨ e.source.Crosses d.source)) ∧
    (∀ e ∈ ds, ∀ d ∈ ds, e.SharesKey d → e.source.IsSame d.source → e.made g = d.made g) ∧
    (Cache.outcomes g {} ds = ds.map (Load.alone g) ↔ ds.Pairwise fun e d =>
      e.box = d.box → e.source.Crosses d.source →
        ∀ l, e.kept? g = some l → d.made g = .ok (some l)) := by
  have hkey : ∀ e ∈ ds, ∀ d ∈ ds, e.SharesKey d ↔ e.box = d.box ∧
      (e.source.IsSame d.source ∧ e.source.IsWritable ∨ e.source.Crosses d.source) :=
    fun e he d hd => (sharesKey_iff h he hd).trans (and_congr_right' Source.sharesMaterial_iff)
  have hsame : ∀ e ∈ ds, ∀ d ∈ ds, e.box = d.box → e.source.IsSame d.source →
      e.made g = d.made g := by
    intro e he d hd hbox hs
    rw [Load.made, Load.made, hbox, hw e he, hw d hd]
    exact process_eq_of_bytes?_eq (hs.bytes?_eq w)
  refine ⟨hkey, fun e he d hd hk hs => hsame e he d hd ((hkey e he d hd).1 hk).1 hs, ?_⟩
  rw [Cache.outcomes_eq_map_alone_iff hg]
  refine List.Pairwise.iff_of_mem fun {e d} he hd => ?_
  constructor
  · intro hagrees hbox hcross
    exact hagrees ((hkey e he d hd).2 ⟨hbox, Or.inr hcross⟩)
  · -- A call for the same source makes the same, so only the crossing ones have to agree.
    intro hcross hk l hl
    obtain ⟨hbox, ⟨hs, -⟩ | hc⟩ := (hkey e he d hd).1 hk
    · rw [← hsame e he d hd hbox hs]
      exact (Load.kept?_eq_some_iff.1 hl).2
    · exact hcross hbox hc l hl

end Calls

def addressLoad : Load := { surroundings := {}, source := .ofText pointAddress, box := .usual }

def bytesLoad : Load :=
  { surroundings := {}, source := .bytes (Text.utf8 pointAddress), box := .usual }

theorem made_bytesLoad : bytesLoad.made .plain = .ok none := by rfl

def mixedLoads : List Load := [bytesLoad,
  { surroundings := {}, source := .ofText bareAddress, box := .usual },
  { surroundings := {}, source := .ofText (' ' :: pointAddress), box := .usual }]

@[simp] theorem Source.material?_bytes (b : ByteArray) : (bytes b).material? = some b := rfl

theorem entries_isolated_mixedLoads :
    CollisionFree mixedLoads ∧ (∀ d ∈ mixedLoads, d.surroundings = {}) ∧
      Cache.outcomes .plain {} mixedLoads = mixedLoads.map (Load.alone .plain) := by
  have hfree : CollisionFree mixedLoads := by
    refine collisionFree_of_addresses (by simp [mixedLoads, bytesLoad]) ?_
    simp [mixedLoads, bytesLoad, material?_addresses]
  have hw : ∀ d ∈ mixedLoads, d.surroundings = {} := by simp [mixedLoads, bytesLoad]
  have hnone : bytesLoad.kept? .plain = none := by
    rw [Load.kept?, made_bytesLoad]
    rfl
  refine ⟨hfree, hw, (entries_isolated Imaging.isSound_plain hfree hw).2.2.2 ?_⟩
  simp [mixedLoads, hnone, Source.Crosses, Source.ofText]

/-- The bytes of an address are given the logo of the address, though there is none to be made of
them. -/
theorem not_isolated_crossingLoads :
    CollisionFree [addressLoad, bytesLoad] ∧ addressLoad.SharesKey bytesLoad ∧
      ∃ l, [addressLoad, bytesLoad].map (Load.made .plain) = [.ok (some l), .ok none] ∧
        Cache.outcomes .plain {} [addressLoad, bytesLoad] = [.ok (some l), .ok (some l)] := by
  have hfree : CollisionFree [addressLoad, bytesLoad] := by
    refine collisionFree_of_addresses (by simp [addressLoad, bytesLoad]) ?_
    simp [addressLoad, bytesLoad, material?_addresses]
  have hshares : addressLoad.SharesKey bytesLoad :=
    (sharesKey_iff hfree (by simp) (by simp)).2 ⟨rfl, _, material?_addresses.1, rfl⟩
  obtain ⟨key, hkey, hkey'⟩ := id hshares
  have hsome : (addressLoad.kept? .plain).isSome = true := by decide +kernel
  obtain ⟨l, hkept⟩ := Option.isSome_iff_exists.1 hsome
  have hl : addressLoad.made .plain = .ok (some l) := (Load.kept?_eq_some_iff.1 hkept).2
  -- The second call finds under its key what the first one has left there.
  obtain ⟨hfirst, hholds⟩ := Cache.through_eq Imaging.isSound_plain Cache.holds_nil addressLoad
  obtain ⟨hsecond, -⟩ := Cache.through_eq Imaging.isSound_plain hholds bytesLoad
  have hgiven : given .plain [] addressLoad = .ok (some l) := by
    rw [given, hkey, ← hl, ← Load.alone_of_key? hkey]
    rfl
  have hleft : left? .plain ([] ++ [addressLoad]) key = some l := by
    simp [left?, hkey, hkept]
  have houtcomes : Cache.outcomes .plain {} [addressLoad, bytesLoad] =
      [given .plain [] addressLoad, given .plain ([] ++ [addressLoad]) bytesLoad] := by
    rw [← hfirst, ← hsecond]
    rfl
  refine ⟨hfree, hshares, l, by rw [← hl, ← made_bytesLoad]; rfl, ?_⟩
  rw [houtcomes, hgiven, given, hkey', Option.bind_some, hleft]

end Letterhead.Logo
