import Letterhead.Proofs.Service.Download
import Letterhead.Proofs.Store.Numbering

/-! Numbers of documents, as they are told and asked for. Where a number comes back, the address of a
document that has been deleted leads to another one. -/
namespace Letterhead.Service
open Store

/-- No document is told of under the address of a number that has gone. -/
theorem status_of_not_mem (w : Service) (now : Instant) {s : Store} {n : Int}
    (hkey : isKey n = true) (h : n ∉ s.numbers) (headers : Named Text) (payload : Payload) :
    (w.respond now s ⟨"GET".toList, Descriptor.urlOf n, headers, payload⟩).1.status = 404 := by
  have hget : "GET".toList ≠ "OPTIONS".toList := by decide +kernel
  have hagrees := (respond_of_not_options w now s
    (c := ⟨"GET".toList, Descriptor.urlOf n, headers, payload⟩) hget).1
  rw [answerCall_download, download, get?_of_not_mem hkey h] at hagrees
  exact hagrees.status

/-- No number is given twice exactly where every row is added while no number given before is greater
than all that are there. Then a number that has gone stays without a document, and its address leads
to none. What is told is what was given, but for rows that could not be read back. -/
theorem nodup_given_iff (threads : List Text) (as : List Action) :
    ((trail given (ofThreads threads) as).Nodup ↔
      ∀ bs a, bs ++ [a] <+: as → AddsInOrder threads bs a) ∧
    ((trail told (ofThreads threads) as).Sublist (trail given (ofThreads threads) as) ∧
      ((∀ a ∈ as, a.IsReadBack) →
        trail told (ofThreads threads) as = trail given (ofThreads threads) as)) ∧
    ((trail given (ofThreads threads) as).Nodup → ∀ bs, bs <+: as →
      ∀ n ∈ trail told (ofThreads threads) bs, isKey n = true →
        n ∉ ((ofThreads threads).run bs).numbers →
          ((ofThreads threads).run as).get? n = .ok none ∧
          ∀ (w : Service) now headers payload, (w.respond now ((ofThreads threads).run as)
            ⟨"GET".toList, Descriptor.urlOf n, headers, payload⟩).1.status = 404) := by
  refine ⟨nodup_trail_iff threads as, trail_told threads as, ?_⟩
  rintro hnodup bs ⟨cs, rfl⟩ n hn hkey hgone
  have hstays := not_mem_numbers_run threads hnodup ((trail_told threads bs).1.subset hn) hgone
  exact ⟨get?_of_not_mem hkey hstays,
    fun w now headers payload => status_of_not_mem w now hkey hstays headers payload⟩

def thriftyRun : List Action :=
  [.generate {} ⟨1705314600000000⟩ .succeeds (sampleRequest "x"),
    .generate {} ⟨1705314600001000⟩ .succeeds (sampleRequest "y"), .delete true 1,
    .generate {} ⟨1705314600002000⟩ .succeeds (sampleRequest "z")]

theorem nodup_given_iff_thriftyRun :
    (trail told (ofThreads [sampleThread]) thriftyRun).Nodup ∧
      ((ofThreads [sampleThread]).run thriftyRun).get? 1 = .ok none := by
  obtain ⟨-, ⟨hsublist, -⟩, hgone⟩ := nodup_given_iff [sampleThread] thriftyRun
  have hnodup : (trail given (ofThreads [sampleThread]) thriftyRun).Nodup := by decide +kernel
  refine ⟨hsublist.nodup hnodup, ?_⟩
  exact (hgone hnodup (thriftyRun.take 3) (List.take_prefix 3 thriftyRun) 1 (by decide +kernel)
    (by decide) (by decide +kernel)).1

def reissuingRun : List Action :=
  [.generate {} ⟨1705314600000000⟩ .succeeds (sampleRequest "x"), .delete true 1,
    .generate {} ⟨1705314600001000⟩ .succeeds (sampleRequest "y")]

/-- Both documents are told the number one, and the address of the first leads to the second. -/
theorem not_nodup_told_reissuingRun :
    ¬ (trail told (ofThreads [sampleThread]) reissuingRun).Nodup ∧
      (((ofThreads [sampleThread]).run (reissuingRun.take 2)).get? 1 = .ok none ∧
        (respond {} ⟨1705314600001000⟩ ((ofThreads [sampleThread]).run reissuingRun)
          ⟨"GET".toList, Descriptor.urlOf 1, [], .absent⟩).1.status = 200) :=
  ⟨by decide +kernel, get?_of_not_mem (by decide) (by decide +kernel), by decide +kernel⟩

end Letterhead.Service
