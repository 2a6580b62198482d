import Letterhead.Proofs.Service.Numbering
import Letterhead.Proofs.Store.Counting
import Letterhead.Proofs.Store.Undo

/-! Numbers without a document. Whatever is asked of the store or of the service about a number that no
row has changes nothing. That there is no document is told exactly where the number fits into 64 bits; a
greater one breaks what is asked. -/
namespace Letterhead

namespace Store
variable {s : Store} {id : Int}

theorem delete_of_not_mem (hkey : isKey id = true) (h : id ∉ s.numbers) (commits : Bool) :
    s.delete commits id = (.ok false, s) := by
  rw [delete, row?_of_not_mem hkey h]

theorem delete_of_not_isKey (hkey : isKey id = false) (s : Store) (commits : Bool) :
    s.delete commits id = (.error .overflow, s) := by
  rw [delete, row?_of_not_isKey hkey]

theorem get?_of_not_isKey (hkey : isKey id = false) (s : Store) :
    s.get? id = .error .overflow := by
  rw [get?, row?_of_not_isKey hkey]
  rfl

theorem downloads_of_not_isKey (hkey : isKey id = false) (s : Store) :
    s.downloads id = .error .overflow := by
  rw [downloads, row?_of_not_isKey hkey]
  rfl

theorem countUp_of_not_mem (h : id ∉ s.numbers) (commits : Bool) : s.countUp commits id = s := by
  have hrows : s.rows.map (fun r => if r.id = id then { r with downloads := r.downloads + 1 } else r) =
      s.rows := by
    refine (List.map_congr_left fun r hr => ?_).trans s.rows.map_id'
    exact if_neg fun hid => h (List.mem_map.2 ⟨r, hr, hid⟩)
  rw [countUp, update, hrows]
  split <;> rfl

/-- No row is left under a number whose document has been deleted. -/
theorem not_mem_numbers_delete (hkey : isKey id = true) (s : Store) :
    id ∉ (s.delete true id).2.numbers := by
  intro h
  obtain ⟨r, hr, hid⟩ := List.mem_map.1 h
  rw [rows_delete, List.mem_filter] at hr
  simp [isMade, hkey, hid] at hr

end Store

namespace Service

def Endpoint.number? : Endpoint → Option Text
  | .describe t | .download t | .delete t => some t
  | _ => none

def Endpoint.absent : Endpoint → Answer
  | .delete _ => .json 200 (.object [("deleted".toList, .bool false)])
  | _ => notFound

structure Call.AsksFor (c : Call) (e : Endpoint) (id : Int) : Prop where
  leads : Destination.ofAddress c.method c.address = .endpoint e
  number : ∃ t, e.number? = some t ∧ idOf t = .ok id

theorem exists_route_of_ofPath {method path : Text} {e : Endpoint}
    (h : Destination.ofPath method path = .endpoint e) :
    ∃ r ∈ Route.all, r.method.toList = method := by
  simp only [Destination.ofPath] at h
  split at h
  · next m hm =>
    obtain ⟨r, hr, hmatch⟩ := List.mem_filterMap.1 (List.mem_of_find?_eq_some hm)
    obtain ⟨t, -, rfl⟩ := Option.map_eq_some_iff.1 hmatch
    exact ⟨r, hr, by simpa using List.find?_some hm⟩
  · cases h
  · cases h

theorem exists_route_of_ofAddress {method address : Text} {e : Endpoint}
    (h : Destination.ofAddress method address = .endpoint e) :
    ∃ r ∈ Route.all, r.method.toList = method := by
  simp only [Destination.ofAddress] at h
  split at h
  · split at h
    · cases h
    · exact exists_route_of_ofPath h
  · exact exists_route_of_ofPath h

section Asking
variable {w : Service} {now : Instant} {s : Store} {c : Call} {e : Endpoint} {id : Int}

/-- A page of another origin that asks whether it may call leads to no endpoint. -/
theorem Call.AsksFor.ne_options (h : c.AsksFor e id) : c.method ≠ "OPTIONS".toList := by
  have hall : ∀ r ∈ Route.all, r.method.toList ≠ "OPTIONS".toList := by
    simp only [Route.all, List.forall_mem_cons]
    decide
  obtain ⟨r, hr, hmethod⟩ := exists_route_of_ofAddress h.leads
  exact hmethod ▸ hall r hr

theorem answerCall_of_not_mem (h : c.AsksFor e id) (hkey : Store.isKey id = true)
    (hid : id ∉ s.numbers) : w.answerCall now s c = (e.absent, s) := by
  obtain ⟨hleads, t, ht, hnumber⟩ := h
  rw [answerCall, hleads]
  cases e with
  | describe u =>
    cases ht
    simp only [answerAt, withId, hnumber, describe, Store.get?_of_not_mem hkey hid]
    rfl
  | download u =>
    cases ht
    simp only [answerAt, withId, hnumber, download, Store.get?_of_not_mem hkey hid]
    rfl
  | delete u =>
    cases ht
    simp only [answerAt, withId, hnumber, delete, Store.delete_of_not_mem hkey hid]
    rfl
  | create | documents | sweep | health | printerHealth => cases ht

theorem answerCall_of_not_isKey (h : c.AsksFor e id) (hkey : Store.isKey id = false) :
    w.answerCall now s c = (.broken, s) := by
  obtain ⟨hleads, t, ht, hnumber⟩ := h
  rw [answerCall, hleads]
  cases e with
  | describe u =>
    cases ht
    simp only [answerAt, withId, hnumber, describe, Store.get?_of_not_isKey hkey]
  | download u =>
    cases ht
    simp only [answerAt, withId, hnumber, download, Store.get?_of_not_isKey hkey]
  | delete u =>
    cases ht
    simp only [answerAt, withId, hnumber, delete, Store.delete_of_not_isKey hkey]
  | create | documents | sweep | health | printerHealth => cases ht

end Asking

/-- What is asked about a number changes nothing. -/
structure IsHarmless (s : Store) (id : Int) : Prop where
  delete : ∀ commits, (s.delete commits id).2 = s
  countUp : ∀ commits, s.countUp commits id = s
  call : ∀ (w : Service) now c e, c.AsksFor e id → (w.respond now s c).2 = s

/-- All that is asked about a number tells that there is no document. -/
structure IsAbsent (s : Store) (id : Int) : Prop where
  get : s.get? id = .ok none
  downloads : s.downloads id = .ok 0
  delete : ∀ commits, (s.delete commits id).1 = .ok false
  call : ∀ (w : Service) now c e, c.AsksFor e id → (w.respond now s c).1.Agrees e.absent

/-- All that is asked about a number breaks. -/
structure IsBeyond (s : Store) (id : Int) : Prop where
  get : s.get? id = .error .overflow
  downloads : s.downloads id = .error .overflow
  delete : ∀ commits, (s.delete commits id).1 = .error .overflow
  call : ∀ (w : Service) now c e, c.AsksFor e id → (w.respond now s c).1.Agrees .broken

section Numbers
variable {s : Store} {id : Int}

theorem isAbsent_of_isKey (hkey : Store.isKey id = true) (h : id ∉ s.numbers) : IsAbsent s id where
  get := Store.get?_of_not_mem hkey h
  downloads := Store.downloads_of_not_mem hkey h
  delete commits := by rw [Store.delete_of_not_mem hkey h]
  call w now c e hc := by
    have hagrees := (respond_of_not_options w now s hc.ne_options).1
    rwa [answerCall_of_not_mem hc hkey h] at hagrees

theorem isBeyond_of_not_isKey (hkey : Store.isKey id = false) (s : Store) : IsBeyond s id where
  get := Store.get?_of_not_isKey hkey s
  downloads := Store.downloads_of_not_isKey hkey s
  delete commits := by rw [Store.delete_of_not_isKey hkey]
  call w now c e hc := by
    have hagrees := (respond_of_not_options w now s hc.ne_options).1
    rwa [answerCall_of_not_isKey hc hkey] at hagrees

theorem isHarmless_of_not_mem (h : id ∉ s.numbers) : IsHarmless s id := by
  refine ⟨fun commits => ?_, Store.countUp_of_not_mem h, fun w now c e hc => ?_⟩
  · cases hkey : Store.isKey id with
    | true => rw [Store.delete_of_not_mem hkey h]
    | false => rw [Store.delete_of_not_isKey hkey]
  · rw [(respond_of_not_options w now s hc.ne_options).2]
    cases hkey : Store.isKey id with
    | true => rw [answerCall_of_not_mem hc hkey h]
    | false => rw [answerCall_of_not_isKey hc hkey]

end Numbers

/-- What is asked about a number that no row has changes nothing. It tells that there is no document
exactly where the number fits into 64 bits, and breaks where it does not. So it is once a document has
been deleted: to delete it again finds nothing and changes nothing. -/
theorem isAbsent_iff_isKey (s : Store) (id : Int) :
    (id ∉ s.numbers → IsHarmless s id ∧ (IsAbsent s id ↔ Store.isKey id = true) ∧
      (Store.isKey id = false → IsBeyond s id)) ∧
    (Store.isKey id = true →
      IsHarmless (s.delete true id).2 id ∧ IsAbsent (s.delete true id).2 id) := by
  refine ⟨fun h => ⟨isHarmless_of_not_mem h, ⟨fun habsent => ?_, fun hkey => ?_⟩,
    fun hkey => isBeyond_of_not_isKey hkey s⟩, fun hkey => ?_⟩
  · by_contra hkey
    have hget := habsent.get
    rw [Store.get?_of_not_isKey (Bool.eq_false_iff.2 hkey)] at hget
    cases hget
  · exact isAbsent_of_isKey hkey h
  · have hgone := Store.not_mem_numbers_delete hkey s
    exact ⟨isHarmless_of_not_mem hgone, isAbsent_of_isKey hkey hgone⟩

/-- The only document of a store is absent once it has been deleted, and so is one with the next number;
the first number beyond 64 bits breaks what is asked. -/
theorem isAbsent_iff_isKey_oneDocument :
    (1 ∈ Store.oneDocument.numbers ∧ IsAbsent (Store.oneDocument.delete true 1).2 1) ∧
      (2 ∉ Store.oneDocument.numbers ∧ IsHarmless Store.oneDocument 2 ∧
        IsAbsent Store.oneDocument 2) ∧
      Store.keyLimit ∉ Store.oneDocument.numbers ∧ IsHarmless Store.oneDocument Store.keyLimit ∧
        IsBeyond Store.oneDocument Store.keyLimit := by
  have hnumbers : Store.oneDocument.numbers = [1] := by decide +kernel
  have hnext : 2 ∉ Store.oneDocument.numbers := by simp [hnumbers]
  have hlimit : Store.keyLimit ∉ Store.oneDocument.numbers := by
    rw [hnumbers]
    decide
  obtain ⟨hharmless, habsent, -⟩ := (isAbsent_iff_isKey Store.oneDocument 2).1 hnext
  obtain ⟨hharmless', -, hbeyond⟩ := (isAbsent_iff_isKey Store.oneDocument Store.keyLimit).1 hlimit
  exact ⟨⟨by simp [hnumbers], ((isAbsent_iff_isKey Store.oneDocument 1).2 (by decide)).2⟩,
    ⟨hnext, hharmless, habsent.2 (by decide)⟩, hlimit, hharmless', hbeyond (by decide)⟩

/-- In a store without documents, to delete the first number beyond 64 bits fails, and the address of
its document is not answered as one that leads to none. -/
theorem not_isAbsent_keyLimit :
    Store.keyLimit ∉ (Store.ofThreads []).numbers ∧
      ¬ IsAbsent (Store.ofThreads []) Store.keyLimit ∧
      ((Store.ofThreads []).delete true Store.keyLimit).1 = .error .overflow ∧
      (respond {} sampleMoment (Store.ofThreads [])
        ⟨"GET".toList, "/api/documents/9223372036854775808".toList, [], .absent⟩).1.status = 500 :=
  ⟨by decide, fun h => absurd (h.delete true) (by decide), by decide, by decide +kernel⟩

end Service
end Letterhead
