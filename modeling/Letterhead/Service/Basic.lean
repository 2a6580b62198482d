import Letterhead.Service.Documents
import Letterhead.Service.Route

/-!
The service: calls are answered on a store, one after the other. A call may come from a page of
another origin; origins that are allowed are named in the answer, and such a page may ask beforehand
whether it may call.
-/

namespace Letterhead.Service

def version : Text := "unknown".toList

def health : Answer := .json 200 (.object [("status".toList, .str "ok"),
  ("version".toList, .text version)])

def reasonLimit : Nat := 500

def printerHealth : Page.Printer → Answer
  | .absent => .refused 503 "Playwright is not installed.".toList
  | .broken reason =>
    .refused 503 ("Playwright runtime unavailable: ".toList ++ reason.take reasonLimit)
  | .ready _ =>
    .json 200 (.object [("status".toList, .str "ok"), ("pdf_runtime".toList, .str "ready")])

def withId (s : Store) (t : Text) (f : Int → Answer × Store) : Answer × Store :=
  match idOf t with
  | .ok id => f id
  | .faulty faults => (.faulty faults, s)

def answerAt (w : Service) (now : Instant) (s : Store) (c : Call) : Endpoint → Answer × Store
  | .create => w.create now s c
  | .describe t => withId s t fun id => (describe s id, s)
  | .download t => withId s t fun id => download now s id
  | .delete t => withId s t fun id => delete s id
  | .documents thread => (documents s thread, s)
  | .sweep => sweep now s
  | .health => (health, s)
  | .printerHealth => (printerHealth w.printer, s)

def answerCall (w : Service) (now : Instant) (s : Store) (c : Call) : Answer × Store :=
  match Destination.ofAddress c.method c.address with
  | .endpoint e => w.answerAt now s c e
  | .onlyMethod m =>
    ((Answer.refused 405 "Method Not Allowed".toList).withHeader "allow" m.toList, s)
  | .nowhere => (.refused 404 "Not Found".toList, s)

def allowedOrigins : List Text :=
  ["http://localhost:3000".toList, "http://127.0.0.1:3000".toList]

def allowedMethods : List Text :=
  ["DELETE", "GET", "HEAD", "OPTIONS", "PATCH", "POST", "PUT"].map String.toList

def nameOrigin (origin : Text) (a : Answer) : Answer :=
  if allowedOrigins.contains origin then a.withHeader "access-control-allow-origin" origin else a

def mayCall (origin method : Text) : Answer :=
  let refusals := (if allowedOrigins.contains origin then [] else ["origin"]) ++
    if allowedMethods.contains method then [] else ["method"]
  nameOrigin origin
    (if refusals.isEmpty then .plain 200 "OK"
    else .plain 400 ("Disallowed CORS " ++ ", ".intercalate refusals))

def brokenStatus : Nat := 500

def respond (w : Service) (now : Instant) (s : Store) (c : Call) : Answer × Store :=
  match c.header? "origin" with
  | none => w.answerCall now s c
  | some origin =>
    match c.method == "OPTIONS".toList, c.header? "access-control-request-method" with
    | true, some method => (mayCall origin method, s)
    | _, _ =>
      let r := w.answerCall now s c
      (if r.1.status = brokenStatus then r.1 else nameOrigin origin r.1, r.2)

end Letterhead.Service
