import Letterhead.Service.Address

/-!
Routes of the service: for each, a method, a pattern of its path, and what is asked for. The first
route that matches path and method answers. Where only paths match, the first of those tells the
method that is allowed.
-/

namespace Letterhead.Service

inductive Endpoint where
  | create
  | describe (id : Text)
  | download (id : Text)
  | delete (id : Text)
  | documents (thread : Text)
  | sweep
  | health
  | printerHealth
deriving DecidableEq, Repr

inductive Part where
  | word (w : String)
  | anything
deriving DecidableEq, Repr

structure Route where
  method : String
  pattern : List Part
  endpoint : Text → Endpoint

namespace Route

/-- What a pattern takes from the parts of a path, if it matches them: the part that stands where
anything may, or nothing. A line feed at the very end of a path does not matter. -/
def taken? : List Part → List Text → Option Text
  | [], [] => some []
  | .word w :: ps, t :: ts =>
    if t = w.toList || (ts.isEmpty && t = w.toList ++ ['\n']) then taken? ps ts else none
  | .anything :: ps, t :: ts =>
    if t.isEmpty then none else (taken? ps ts).map fun more => t ++ more
  | _, _ => none

def all : List Route := [
  ⟨"POST", [.word "api", .word "documents"], fun _ => .create⟩,
  ⟨"GET", [.word "api", .word "documents", .anything], .describe⟩,
  ⟨"GET", [.word "api", .word "documents", .anything, .word "download"], .download⟩,
  ⟨"DELETE", [.word "api", .word "documents", .anything], .delete⟩,
  ⟨"GET", [.word "api", .word "threads", .anything, .word "documents"], .documents⟩,
  ⟨"POST", [.word "api", .word "documents", .word "cleanup"], fun _ => .sweep⟩,
  ⟨"GET", [.word "health"], fun _ => .health⟩,
  ⟨"GET", [.word "health", .word "pdf"], fun _ => .printerHealth⟩]

def matching (path : Text) : List (String × Endpoint) :=
  all.filterMap fun r =>
    (taken? r.pattern (Address.parts path)).map fun t => (r.method, r.endpoint t)

end Route

inductive Destination where
  | endpoint (e : Endpoint)
  | onlyMethod (method : String)
  | nowhere
deriving DecidableEq, Repr

namespace Destination

def ofPath (method : Text) (path : Text) : Destination :=
  let found := Route.matching path
  match found.find? fun m => m.1.toList == method, found with
  | some m, _ => .endpoint m.2
  | none, m :: _ => .onlyMethod m.1
  | none, [] => .nowhere

/-- Where a method and an address lead. A path that leads nowhere is tried without the slashes at
its end. -/
def ofAddress (method address : Text) : Destination :=
  let path := Address.path address
  match ofPath method path with
  | .nowhere =>
    let shorter := Address.withoutSlashes path
    if shorter = path || ofPath method shorter = .nowhere then .nowhere
    else ofPath method (Address.path shorter)
  | d => d

end Destination
end Letterhead.Service
