import Letterhead.Proofs.Number.Numeral
import Letterhead.Proofs.Text.Lines
import Letterhead.Proofs.Text.Octets
import Letterhead.Service.Documents
import Letterhead.Service.Route

/-! Addresses of documents. Where the parts of a path are written in plain characters, nothing in an
address is skipped, followed or unescaped; the address that a descriptor tells leads to its
download. -/
namespace Letterhead.Service

namespace Address

def IsPlain (c : Char) : Prop := c.toNat < 128 ∧ c ∉ ['%', '?', '#']

instance (c : Char) : Decidable (IsPlain c) := inferInstanceAs (Decidable (_ ∧ _))

theorem forall_isPlain_of_all {t : Text} (h : t.all (fun c => IsPlain c) = true) :
    ∀ c ∈ t, IsPlain c := by
  simpa using h

/-- A part of a path that is kept as it is. -/
structure IsPart (p : Text) : Prop where
  plain : ∀ c ∈ p, IsPlain c
  slash : '/' ∉ p
  point : p ≠ ['.']
  points : p ≠ ['.', '.']

theorem unescape_cons_of_ne {c : Char} (hc : c ≠ '%') (t : Text) :
    unescape (c :: t) = Bytes.toList (Text.utf8 [c]) ++ unescape t := by
  rw [unescape]
  intro a b rest he
  exact absurd he hc

theorem read_unescape {t : Text} (h : ∀ c ∈ t, IsPlain c) : Octets.read (unescape t) = t := by
  induction t with
  | nil => rw [unescape]; rfl
  | cons c t ih =>
    obtain ⟨hascii, hplain⟩ := h c (by simp)
    have hpercent : c ≠ '%' := fun he => hplain (by simp [he])
    rw [unescape_cons_of_ne hpercent, Text.toList_utf8_singleton hascii, List.singleton_append,
      Octets.read, Octets.readFrom_none_cons hascii, Char.ofNat_toNat]
    exact congrArg (c :: ·) (ih fun d hd => h d (List.mem_cons_of_mem c hd))

theorem followPoints_of_parts {ps : List Text} (h : ∀ p ∈ ps, IsPart p) : followPoints ps = ps := by
  unfold followPoints
  -- What was kept before stays below what is kept of the rest.
  suffices hfold : ∀ done : List Text, ps.foldl (fun done p =>
      if p = ['.'] then done
      else if p = ['.', '.'] then
        if done = [] || done = [[]] then done else done.drop 1
      else p :: done) done = ps.reverse ++ done by
    rw [hfold, List.append_nil, List.reverse_reverse]
  induction ps with
  | nil => exact fun done => rfl
  | cons p ps ih =>
    intro done
    have hp := h p (by simp)
    rw [List.foldl_cons, if_neg hp.point, if_neg hp.points,
      ih fun q hq => h q (List.mem_cons_of_mem p hq)]
    simp

/-- A path of plain parts is read as those parts. -/
theorem parts_path {p : Text} {ps : List Text} (h : ∀ q ∈ p :: ps, IsPart q) (hp : p ≠ []) :
    parts (path (['/'].intercalate ([] :: p :: ps))) = p :: ps := by
  have hnil : IsPart [] := ⟨by simp, by simp, by simp, by simp⟩
  have hparts : ∀ q ∈ [] :: p :: ps, IsPart q := List.forall_mem_cons.2 ⟨hnil, h⟩
  have hsplit : (['/'].intercalate ([] :: p :: ps)).splitOn '/' = [] :: p :: ps :=
    List.splitOn_intercalate '/' (fun q hq => (hparts q hq).slash) (by simp)
  have hplain : ∀ c ∈ ['/'].intercalate ([] :: p :: ps), IsPlain c := by
    intro c hc
    rcases Text.mem_of_mem_intercalate hc with hc | ⟨q, hq, hc⟩
    · obtain rfl := List.mem_singleton.1 hc
      exact ⟨by decide, by decide⟩
    · exact (hparts q hq).plain c hc
  obtain ⟨c, cs, rfl⟩ := List.exists_cons_of_ne_nil hp
  have hslash : c ≠ '/' := fun he => (h (c :: cs) (by simp)).slash (by simp [he])
  have htext : ∃ t, ['/'].intercalate ([] :: (c :: cs) :: ps) = '/' :: c :: t := by
    cases ps with
    | nil => exact ⟨cs, by simp⟩
    | cons q ps => exact ⟨cs ++ '/' :: ['/'].intercalate (q :: ps), by
        simp [List.intercalate_cons_cons]⟩
  obtain ⟨t, ht⟩ := htext
  have hquery : withoutQuery ('/' :: c :: t) = '/' :: c :: t := by
    rw [← ht]
    refine List.takeWhile_eq_self_iff.2 fun d hd => ?_
    have hne := (hplain d hd).2
    simp only [List.mem_cons, List.not_mem_nil, or_false, not_or] at hne
    simp [hne.2.1, hne.2.2]
  have hpath : path ('/' :: c :: t) = '/' :: c :: t := by
    have hdrop : ('/' :: c :: t).dropWhile (· == '/') = c :: t := by
      rw [List.dropWhile_cons_of_pos (by simp), List.dropWhile_cons_of_neg (by simp [hslash])]
    rw [path, hquery, hdrop, ← ht, hsplit, followPoints_of_parts hparts, read_unescape hplain]
  rw [ht, hpath, parts, ← ht, hsplit]
  rfl

theorem isPart_intText (n : Int) : IsPart (intText n) := by
  have hnot : ∀ c : Char, c ≠ '-' → c.isDigit = false → c ∉ intText n := fun c hc hd h => by
    rcases mem_intText h with h | h
    · exact hc h
    · exact Bool.noConfusion (hd.symm.trans h)
  have hpoint : '.' ∉ intText n := hnot '.' (by decide) (by decide)
  refine ⟨fun c hc => ⟨?_, fun hm => ?_⟩, hnot '/' (by decide) (by decide), fun he => ?_,
    fun he => ?_⟩
  · rcases mem_intText hc with rfl | hd
    · decide
    · have hle := le_of_isDigit hd
      omega
  · simp only [List.mem_cons, List.not_mem_nil, or_false] at hm
    rcases hm with rfl | rfl | rfl <;> exact hnot _ (by decide) (by decide) hc
  · exact hpoint (by rw [he]; decide)
  · exact hpoint (by rw [he]; decide)

end Address

theorem intText_ne_nil (n : Int) : intText n ≠ [] := by
  unfold intText
  split
  · exact List.cons_ne_nil _ _
  · exact Nat.toDigits_ne_nil

namespace Route

theorem taken?_of_length_ne {ps : List Part} {ts : List Text} (h : ps.length ≠ ts.length) :
    taken? ps ts = none := by
  fun_induction taken? ps ts with
  | case1 => exact absurd rfl h
  | case2 w ps t ts ht ih => exact ih fun he => h (congrArg Nat.succ he)
  | case3 => rfl
  | case4 => rfl
  | case5 ps t ts ht ih =>
    rw [ih fun he => h (congrArg Nat.succ he)]
    rfl
  | case6 => rfl

theorem taken?_word_self (w : String) (ps : List Part) (ts : List Text) :
    taken? (.word w :: ps) (w.toList :: ts) = taken? ps ts := by
  simp [taken?]

theorem taken?_word_of_ne {w : String} {t u : Text} (h : t ≠ w.toList) (ps : List Part)
    (ts : List Text) : taken? (.word w :: ps) (t :: u :: ts) = none := by
  simp [taken?, h]

theorem taken?_anything {t : Text} (h : t ≠ []) (ps : List Part) (ts : List Text) :
    taken? (.anything :: ps) (t :: ts) = (taken? ps ts).map fun more => t ++ more := by
  simp [taken?, h]

theorem matching_of_parts {path id : Text} (hid : id ≠ [])
    (h : Address.parts path = ["api".toList, "documents".toList, id, "download".toList]) :
    matching path = [("GET", .download id)] := by
  have hlength : ∀ ps : List Part, ps.length ≠ 4 → taken? ps (Address.parts path) = none :=
    fun ps hps => taken?_of_length_ne (by rw [h]; exact hps)
  have hdownload : taken? [.word "api", .word "documents", .anything, .word "download"]
      (Address.parts path) = some id := by
    rw [h, taken?_word_self, taken?_word_self, taken?_anything hid, taken?_word_self, taken?,
      Option.map_some, List.append_nil]
  have hthreads : taken? [.word "api", .word "threads", .anything, .word "documents"]
      (Address.parts path) = none := by
    rw [h, taken?_word_self, taken?_word_of_ne (by decide +kernel)]
  simp [matching, all, hlength, hdownload, hthreads]

end Route

theorem matching_urlOf (id : Int) : Route.matching (Address.path (Descriptor.urlOf id)) =
    [("GET", .download (intText id))] := by
  have hurl : Descriptor.urlOf id =
      ['/'].intercalate [[], "api".toList, "documents".toList, intText id, "download".toList] := by
    have hstart : "/api/documents/".toList =
        '/' :: "api".toList ++ '/' :: "documents".toList ++ ['/'] := by
      decide +kernel
    have hend : "/download".toList = '/' :: "download".toList := by decide +kernel
    have hjoin : ∀ a b c d : Text,
        ('/' :: a ++ '/' :: b ++ ['/']) ++ c ++ '/' :: d = ['/'].intercalate [[], a, b, c, d] :=
      fun a b c d => by simp [List.intercalate_cons_cons]
    rw [← hjoin, ← hstart, ← hend]
    rfl
  have hwords : ∀ w ∈ ["api".toList, "documents".toList, "download".toList], Address.IsPart w := by
    intro w hw
    simp only [List.mem_cons, List.not_mem_nil, or_false] at hw
    rcases hw with rfl | rfl | rfl <;>
      exact ⟨Address.forall_isPlain_of_all (by decide +kernel), by decide +kernel,
        by decide +kernel, by decide +kernel⟩
  have hparts : Address.parts (Address.path (Descriptor.urlOf id)) =
      ["api".toList, "documents".toList, intText id, "download".toList] := by
    rw [hurl]
    refine Address.parts_path (fun q hq => ?_) (by decide)
    simp only [List.mem_cons, List.not_mem_nil, or_false] at hq
    rcases hq with rfl | rfl | rfl | rfl
    · exact hwords _ (by simp)
    · exact hwords _ (by simp)
    · exact Address.isPart_intText id
    · exact hwords _ (by simp)
  exact Route.matching_of_parts (intText_ne_nil id) hparts

/-- The address that a descriptor tells leads to the download of its document. -/
theorem ofAddress_urlOf (id : Int) : Destination.ofAddress "GET".toList (Descriptor.urlOf id) =
    .endpoint (.download (intText id)) := by
  have hpath : Destination.ofPath "GET".toList (Address.path (Descriptor.urlOf id)) =
      .endpoint (.download (intText id)) := by
    simp [Destination.ofPath, matching_urlOf]
  rw [Destination.ofAddress, hpath]

theorem idOf_intText (id : Int) : idOf (intText id) = .ok id := by
  rw [idOf, Form.intOfText_intText]
  rfl

end Letterhead.Service
