import Letterhead.Proofs.Document.Filename
import Letterhead.Proofs.Document.Slug
import Letterhead.Proofs.Service.Address
import Letterhead.Proofs.Store.Integrity
import Letterhead.Proofs.Store.Outcome
import Letterhead.Service.Basic

/-! Downloads of documents. What a call has made is handed out under the address that it is told, as
long as the file name can stand in a header. -/
namespace Letterhead

namespace Filename

structure IsLatin (title : Text) (thread : Option Text) : Prop where
  title : ∀ c ∈ title.take titleLimit, c ∉ ['\u0130', '\u0131', '\u017f']
  thread : ∀ c ∈ threadStart thread, c.toNat < 256

theorem isHeaderText_make_iff (title : Text) (f : Format) (thread : Option Text) (now : Instant) :
    Service.isHeaderText (make title f.name thread now) = true ↔ IsLatin title thread := by
  have hall : ∀ t : Text, Service.isHeaderText t = true ↔ ∀ c ∈ t, c.toNat < 256 := fun t => by
    simp [Service.isHeaderText]
  -- A name has four parts; only the start of the thread and the slug can leave the range.
  obtain ⟨t, hthread, ht⟩ := exists_threadPart_eq thread
  have hline : ∀ c ∈ t, c.toNat < 256 := fun c hc => by
    rw [ht c hc]
    decide
  have hstamp : ∀ c ∈ '_' :: stamp (now.millis, f), c.toNat < 256 := by
    intro c hc
    by_contra hlarge
    have hnot : c ∉ stamp (now.millis, f) := by
      refine not_mem_stamp ?_ ?_ ?_ (fun f h => ?_) _
      · by_contra hd
        have hle := (le_of_isDigit (Bool.of_not_eq_false hd)).2
        omega
      · rintro rfl
        exact hlarge (by decide)
      · rintro rfl
        exact hlarge (by decide)
      · have hname : Service.isHeaderText f.name = true := by cases f <;> decide
        exact hlarge ((hall _).1 hname c h)
    rcases List.mem_cons.1 hc with rfl | h
    · exact hlarge (by decide)
    · exact hnot h
  have hmake : make title f.name thread now =
      threadStart thread ++ t ++ slug title ++ '_' :: stamp (now.millis, f) := by
    simp [make, stamp, hthread]
  rw [hall, hmake]
  simp only [List.forall_mem_append, slug_lt_iff]
  constructor
  · rintro ⟨⟨⟨hstart, -⟩, htitle⟩, -⟩
    exact ⟨htitle, hstart⟩
  · rintro ⟨htitle, hstart⟩
    exact ⟨⟨⟨hstart, hline⟩, htitle⟩, hstamp⟩

end Filename

namespace Store

/-- A document that has been recorded is there under its number, with its file. -/
theorem recorded_of_generate {s t : Store} {p : Press} {now : Instant} {r : Request}
    {d : Descriptor} {draw : List Int → Option Int} (hthread : r.thread ≠ none)
    (h : s.generate p now .succeeds r (.keyed draw) = (.ok d, t)) :
    ∃ b rendering, (p.make s.logos now r).1 = .ok (b, rendering) ∧ d.filename = r.filename now ∧
      d.url = Descriptor.urlOf d.id ∧ t.get? d.id = .ok (some d) ∧
      t.files.get? d.path = some rendering.bytes := by
  obtain ⟨l, b, rendering, hw, ⟨hnone, -⟩ | ⟨thread, expires, id, -, hnumber, rfl, rfl⟩⟩ :=
    told_of_generate h
  · exact absurd hnone hthread
  have hrow := descriptor_rowOf id now r thread (r.filename now) l b rendering expires
  have hget := get?_insert (s := s.afterWrite p now r l rendering)
    (r := rowOf id now r thread (r.filename now) l b rendering expires)
    (fun q hq => id_ne_of_number? hnumber hq) hrow
  exact ⟨b, rendering, hw.make, rfl, rfl, hget.trans (if_pos (isKey_of_number? hnumber)),
    Files.get?_put_self _ _ _⟩

end Store

namespace Service

/-- A call that asks for a document, nested no deeper than some levels. -/
structure Call.Asks (c : Call) (r : Request) (levels : Option Nat) : Prop where
  method : c.method = "POST".toList
  address : c.address = "/api/documents".toList
  request : ∃ body, c.body levels = .ok body ∧ Call.requestOf body = .ok r

/-- Answers that differ at most in the origin that they name. -/
structure Answer.Agrees (a b : Answer) : Prop where
  status : a.status = b.status
  content : a.content = b.content
  header : ∀ name, name ≠ "access-control-allow-origin" → a.header? name = b.header? name

theorem agrees_nameOrigin (origin : Text) (a : Answer) : (nameOrigin origin a).Agrees a := by
  unfold nameOrigin
  split
  · refine ⟨rfl, rfl, fun name hname => ?_⟩
    have hkey : name.toList ≠ "access-control-allow-origin".toList := fun he =>
      hname (String.toList_inj.1 he)
    exact Named.lookup_set_of_ne hkey origin a.headers
  · exact ⟨rfl, rfl, fun _ _ => rfl⟩

theorem respond_of_not_options (w : Service) (now : Instant) (s : Store) {c : Call}
    (hc : c.method ≠ "OPTIONS".toList) :
    (w.respond now s c).1.Agrees (w.answerCall now s c).1 ∧
      (w.respond now s c).2 = (w.answerCall now s c).2 := by
  have hself : ∀ a : Answer, a.Agrees a := fun a => ⟨rfl, rfl, fun _ _ => rfl⟩
  have hmethod : (c.method == "OPTIONS".toList) = false := beq_eq_false_iff_ne.2 hc
  unfold respond
  split
  · exact ⟨hself _, rfl⟩
  · next origin _ =>
    rw [hmethod]
    refine ⟨?_, rfl⟩
    by_cases hbroken : (w.answerCall now s c).1.status = brokenStatus
    · simp only [if_pos hbroken]
      exact hself _
    · simp only [if_neg hbroken]
      exact agrees_nameOrigin origin _

theorem answerCall_of_asks {w : Service} {now : Instant} {s : Store} {c : Call} {r : Request}
    (hc : c.Asks r w.levels) : w.answerCall now s c = w.create now s c := by
  have hdestination : Destination.ofAddress "POST".toList "/api/documents".toList =
      .endpoint .create := by
    decide +kernel
  rw [answerCall, hc.method, hc.address, hdestination]
  rfl

theorem status_failed_ne (e : Failure) : (failed e).status ≠ 200 := by
  unfold failed
  split <;> simp [Answer.refused, Answer.detail, Answer.json, Answer.broken, Answer.plain]

theorem create_of_asks {w : Service} {now : Instant} {s : Store} {c : Call} {r : Request}
    {settings : Settings} (hc : c.Asks r w.levels)
    (hsettings : Settings.ofEnvironment w.environment .empty = .ok settings) :
    w.create now s c = match s.generate (w.press settings) now .succeeds r (.keyed w.draw) with
      | (.ok d, t) => (.json 200 d.json, t)
      | (.error e, t) => (failed e, t) := by
  obtain ⟨body, hbody, hrequest⟩ := hc.request
  simp only [create, hbody, make, hsettings]
  generalize Call.requestOf body = checked at hrequest ⊢
  subst hrequest
  rfl

theorem generate_of_create {w : Service} {now : Instant} {s : Store} {c : Call} {r : Request}
    (hc : c.Asks r w.levels) (h : (w.create now s c).1.status = 200) :
    ∃ settings d t, Settings.ofEnvironment w.environment .empty = .ok settings ∧
      s.generate (w.press settings) now .succeeds r (.keyed w.draw) = (.ok d, t) ∧
      w.create now s c = (.json 200 d.json, t) := by
  cases hsettings : Settings.ofEnvironment w.environment .empty with
  | error e =>
    obtain ⟨body, hbody, -⟩ := hc.request
    simp [create, hbody, make, hsettings, Answer.broken, Answer.plain] at h
  | ok settings =>
    rw [create_of_asks hc hsettings] at h ⊢
    split at h
    · next d t hgenerate => exact ⟨settings, d, t, rfl, hgenerate, rfl⟩
    · next e t hgenerate => exact absurd h (status_failed_ne e)

theorem answerCall_download {w : Service} {now : Instant} {s : Store} {id : Int}
    (headers : Named Text) (payload : Payload) :
    w.answerCall now s ⟨"GET".toList, Descriptor.urlOf id, headers, payload⟩ =
      download now s id := by
  rw [answerCall, ofAddress_urlOf]
  simp only [answerAt, withId, idOf_intText]

/-- An answer that hands out bytes under a name. -/
structure Answer.HandsOut (a : Answer) (name : Text) (b : ByteArray) : Prop where
  status : a.status = 200
  content : a.content = .file b
  length : a.header? "content-length" = some (natText b.size)
  disposition : a.header? "content-disposition" =
    some ("attachment; filename=\"".toList ++ name ++ ['"'])

theorem handsOut_file (medium name : Text) (b : ByteArray) :
    (Answer.file medium name b).HandsOut name b := by
  have hne : ("content-length".toList == "content-disposition".toList) = false := by decide +kernel
  refine ⟨rfl, rfl, ?_, ?_⟩
  · rw [Answer.header?, Answer.file, List.lookup_cons, hne, List.lookup_cons_self]
  · rw [Answer.header?, Answer.file, List.lookup_cons_self]

theorem Answer.HandsOut.of_agrees {a c : Answer} {name : Text} {b : ByteArray}
    (h : c.HandsOut name b) (hagrees : a.Agrees c) : a.HandsOut name b where
  status := hagrees.status.trans h.status
  content := hagrees.content.trans h.content
  length := (hagrees.header _ (by decide)).trans h.length
  disposition := (hagrees.header _ (by decide)).trans h.disposition

theorem handsOut_download {later : Instant} {t : Store} {d : Descriptor} {b : ByteArray}
    (hget : t.get? d.id = .ok (some d)) (hfile : t.files.get? d.path = some b)
    (hexpired : d.isExpired later = false) :
    (isHeaderText d.filename = true → (download later t d.id).1.HandsOut d.filename b) ∧
    (¬ isHeaderText d.filename = true → (download later t d.id).1.status = 500) := by
  have hdownload : (download later t d.id).1 = handOut d b := by
    simp [download, hget, hexpired, hfile]
  rw [hdownload, handOut]
  by_cases hheader : isHeaderText d.filename = true
  · rw [if_pos hheader]
    exact ⟨fun _ => handsOut_file _ _ _, fun hnot => absurd hheader hnot⟩
  · rw [if_neg hheader]
    exact ⟨fun hand => absurd hand hheader, fun _ => rfl⟩

/-- What a call has made can be downloaded until it expires: the bytes that were rendered are handed
out under the name that was told. Only a name that cannot stand in a header breaks the answer. -/
theorem handsOut_created {w : Service} {now : Instant} {s : Store} {c : Call} {r : Request}
    (hc : c.Asks r w.levels) (hthread : r.thread ≠ none)
    (h : (w.respond now s c).1.status = 200) :
    ∃ settings b rendering d, Settings.ofEnvironment w.environment .empty = .ok settings ∧
      ((w.press settings).make s.logos now r).1 = .ok (b, rendering) ∧
      (s.generate (w.press settings) now .succeeds r (.keyed w.draw)).1 = .ok d ∧
      (w.respond now s c).1.content = .json d.json ∧
      ∀ later headers payload, d.isExpired later = false →
        let a := (w.respond later (w.respond now s c).2 ⟨"GET".toList, d.url, headers, payload⟩).1
        (Filename.IsLatin r.title r.thread → a.HandsOut d.filename rendering.bytes) ∧
        (¬ Filename.IsLatin r.title r.thread → a.status = 500) := by
  have hpost : c.method ≠ "OPTIONS".toList := by
    rw [hc.method]
    decide +kernel
  have hasks : "GET".toList ≠ "OPTIONS".toList := by decide +kernel
  obtain ⟨hagrees, hstore⟩ := respond_of_not_options w now s hpost
  rw [answerCall_of_asks hc] at hagrees hstore
  obtain ⟨settings, d, t, hsettings, hgenerate, hcreate⟩ :=
    generate_of_create hc (hagrees.status.symm.trans h)
  obtain ⟨b, rendering, hmake, hname, hurl, hget, hfile⟩ :=
    Store.recorded_of_generate hthread hgenerate
  rw [hcreate] at hagrees hstore
  refine ⟨settings, b, rendering, d, hsettings, hmake, by rw [hgenerate], hagrees.content, ?_⟩
  intro later headers payload hexpired
  have hanswer := (respond_of_not_options w later t
    (c := ⟨"GET".toList, Descriptor.urlOf d.id, headers, payload⟩) hasks).1
  -- The name that goes into the header was made from the request alone.
  have hlatin : isHeaderText d.filename = true ↔ Filename.IsLatin r.title r.thread := by
    rw [hname]
    exact Filename.isHeaderText_make_iff r.title r.format r.thread now
  rw [answerCall_download] at hanswer
  rw [hstore, hurl, ← hlatin]
  obtain ⟨hhands, hbreaks⟩ := handsOut_download hget hfile hexpired
  exact ⟨fun hheader => (hhands hheader).of_agrees hanswer,
    fun hnot => hanswer.status.trans (hbreaks hnot)⟩

def sampleCall (title : String) : Call where
  method := "POST".toList
  address := "/api/documents".toList
  payload := .json (.object [("title".toList, .str title), ("content".toList, .str "x"),
    ("format".toList, .str "md"), ("threadId".toList, .text sampleThread)])

def sampleMoment : Instant := ⟨1705314600000000⟩

def sampleDownload (title : String) : Answer :=
  (respond {} ⟨sampleMoment.micros + 1000000⟩
    (respond {} sampleMoment (.ofThreads [sampleThread]) (sampleCall title)).2
    ⟨"GET".toList, Descriptor.urlOf 1, [], .absent⟩).1

/-- After a plain title the document is handed out, under the name of its thread and its title. -/
theorem handsOut_created_sampleCall :
    ∃ b, (sampleDownload "Doc").HandsOut "thread-1_doc_1705314600000.md".toList b := by
  have hasks : (sampleCall "Doc").Asks { sampleRequest "x" with title := "Doc".toList } none :=
    ⟨rfl, rfl, _, rfl, rfl⟩
  have hstatus : (respond {} sampleMoment (.ofThreads [sampleThread])
      (sampleCall "Doc")).1.status = 200 := by
    decide +kernel
  obtain ⟨settings, b, rendering, d, hsettings, -, hgenerate, -, hall⟩ :=
    handsOut_created hasks (by simp [sampleRequest]) hstatus
  have hvalue : (Settings.ofEnvironment [] .empty).toOption.map (fun settings =>
      ((Store.ofThreads [sampleThread]).generate (press {} settings) sampleMoment .succeeds
        { sampleRequest "x" with title := "Doc".toList } (.keyed fun _ => none)).1.toOption.map fun d =>
          (d.url, d.filename, d.isExpired ⟨sampleMoment.micros + 1000000⟩)) =
        some (some (Descriptor.urlOf 1, "thread-1_doc_1705314600000.md".toList, false)) := by
    decide +kernel
  rw [hsettings] at hvalue
  simp only [Except.toOption, Option.map_some, Option.some.injEq] at hvalue
  rw [hgenerate] at hvalue
  simp only [Option.map_some, Option.some.injEq, Prod.mk.injEq] at hvalue
  obtain ⟨hurl, hname, hexpired⟩ := hvalue
  have hhands := (hall _ [] .absent hexpired).1
  rw [hurl, hname] at hhands
  have hlatin := (Filename.isHeaderText_make_iff "Doc".toList .md (some sampleThread)
    sampleMoment).1 (by decide +kernel)
  exact ⟨_, hhands hlatin⟩

/-- A dotless i in a title is kept in the file name, and the document cannot be downloaded. -/
theorem status_sampleDownload_dotless :
    (respond {} sampleMoment (.ofThreads [sampleThread])
      (sampleCall "Y\u0131ll\u0131k")).1.status = 200 ∧
      (sampleDownload "Y\u0131ll\u0131k").status = 500 :=
  ⟨by decide +kernel, by decide +kernel⟩

end Service
end Letterhead
