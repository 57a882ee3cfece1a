import Curation.Http.Message
import Curation.Http.Route
import Curation.IdList
import Curation.Log
import Curation.Service

/-! The application: every request is answered by one operation at most, in a session of its own. What the
    operation fails with decides the answer. Whatever happens, the entries that the log gets meanwhile share one
    correlation id, and nothing of it is left afterwards. -/

namespace Curation.Http

open Json (Value)
open Schema (Reading)

/-- The application between two requests. -/
structure App where
  settings : Settings
  state : State
  /-- The database can be reached. -/
  connected : Bool := true
  /-- Why no session with the database can be had, if none can. -/
  unavailable : Option Failure := none
  /-- The cache and the store of blobs have been set up. -/
  prepared : Bool := true
  log : Log.Context := {}

namespace App

/-- Runs an operation in a session of its own, and then what it leaves to be done in the background. -/
def runSession (a : Act α) (s : State) : Except Failure α × State :=
  match a s with
  | (.ok x, s) => (.ok x, Icon.runCleanups s.closed)
  | (.error e, s) => (.error e, Icon.runCleanups s.rolledBack.closed)

/-- Answers with what an operation returns. -/
def serve (app : App) (a : Act α) (answer : α → Except Failure Answer) : Except Failure Answer × App :=
  let (result, state) := runSession a app.state
  (result.bind answer, { app with state })

/-- Sets up what serving collections takes, a session first, and goes on. -/
def withService (app : App) (run : App → Except Failure Answer × App) : Except Failure Answer × App :=
  match app.unavailable with
  | some e => (.error e, app)
  | none => run { app with prepared := true }

/-- Reads something of a request, and carries it out if it can be read. -/
def withReading (app : App) (r : Reading α) (run : α → Except Failure Answer × App) :
    Except Failure Answer × App :=
  match r with
  | .value a => run a
  | .mismatches ms => (.ok (Answer.ofMismatches ms), app)

/-- Reads the body of a request, and carries it out if it can be read. -/
def withBody (app : App) (r : Request) (read : Keyed Value → Reading α)
    (run : App → α → Except Failure Answer × App) : Except Failure Answer × App :=
  match readBody r with
  | .error answer => (.ok answer, app)
  | .ok body => app.withService fun app => app.withReading (body.read read) (run app)

/-- Reads a value of the query, which must be there. -/
def queryText (r : Request) (name : String) : Reading String :=
  match Text.queryValue? r.query name with
  | some v => pure v
  | none => (Reading.fault .missing).under (.field name)

def service : String := "CollectionHub"

/-- What is said about the database. -/
def readiness (connected : Bool) : Answer :=
  let (status, word, database) :=
    if connected then (200, "ready", "connected") else (503, "not_ready", "disconnected")
  .ofValue status (.record [("status", .text word), ("service", .text service), ("database", .text database)])

/-- The text without the slashes at both ends. -/
def withinSlashes (s : String) : String :=
  Settings.withoutSlashes (String.ofList (s.toList.dropWhile (· == '/')))

/-- The answer with a value, if it has the form that is promised. -/
def promised : Reading Value → Except Failure Answer
  | .value v => .ok (.ofValue 200 v)
  | .mismatches _ => .error .badAnswer

def collectionAnswer (c : Collection) : Except Failure Answer := promised (Request.ofCollection c)

def htmlPage : Answer :=
  { status := 200
    headers := [("content-type", "text/html; charset=utf-8")]
    content := .page "text/html; charset=utf-8" }

/-- Does what a request asks for. -/
def perform (app : App) (r : Request) : Endpoint → Except Failure Answer × App
  | .openApi =>
    (.ok { status := 200
           headers := [("content-type", "application/json")]
           content := .page "application/json" }, app)
  | .docs | .docsReturn | .redoc => (.ok htmlPage, app)
  | .health =>
    (.ok (.ofValue 200 (.record [("status", .text "healthy"), ("service", .text service),
      ("version", .text app.settings.appVersion)])), app)
  | .ready => (.ok (readiness app.connected), app)
  | .root =>
    (.ok (.ofValue 200 (.record [("name", .text app.settings.appName),
      ("version", .text app.settings.appVersion),
      ("api_version", .text (withinSlashes app.settings.apiRoot))])), app)
  | .list => app.withService fun app =>
    app.withReading (queryText r "ids") fun raw =>
      app.serve (do Service.list r.actor (← Catalog.check (parseIds r.nesting raw))) fun cs =>
        promised (Request.ofCollections cs)
  | .create => app.withBody r Request.Creation.ofFields fun app c =>
    app.serve (Service.create r.actor c.title c.description c.projects) collectionAnswer
  | .get id => app.withService fun app => app.serve (Service.get r.actor id) collectionAnswer
  | .edit id => app.withBody r Request.editOfFields fun app e =>
    app.serve (Service.edit r.actor id e) fun _ => .ok .done
  | .setIcon id => app.withService fun app =>
    app.withReading (queryText r "ext") fun extension =>
      app.serve (Service.setIcon r.actor id extension r.payload) fun _ => .ok .done
  | .clearIcon id => app.withService fun app =>
    app.serve (Service.clearIcon r.actor id) fun _ => .ok .done
  | .delete id => app.withService fun app =>
    app.serve (Service.delete r.actor id) fun _ => .ok .done

/-- The characters that the address of a redirect keeps. -/
def keptInAddress (c : Char) : Bool := ":/%#?=@[]!$&'()*+,;".toList.contains c

/-- Sends the client to another path, in which the marks for a query and for a place in a page are no marks. -/
def redirection (r : Request) (path : String) : Answer :=
  let path := (path.replace "?" "%3F").replace "#" "%23"
  let query := if r.query.isEmpty then "" else "?" ++ r.query
  let address := "http://" ++ (r.header? "host").getD "test" ++ path ++ query
  { status := 307, headers := [("location", Text.percentEncode keptInAddress address)] }

/-- Answers a request. Failures of the domain are answered, any other one is left. -/
def respond (app : App) (r : Request) : Except Failure Answer × App :=
  match destination (routes app.settings) r.method r.path with
  | .nowhere => (.ok .notFound, app)
  | .wrongMethod allowed => (.ok (.wrongMethod allowed), app)
  | .redirect path => (.ok (redirection r path), app)
  | .endpoint e =>
    match app.perform r e with
    | (.ok a, app) => (.ok a, app)
    | (.error e, app) =>
      if e.isDomain then (.ok (.ofFailure app.settings.debug e), app) else (.error e, app)

def correlationHeader : String := "X-Correlation-ID"

/-- An answer, and the failure that the application did not expect, if there was one. -/
structure Outcome where
  answer : Answer
  raised : Option Failure := none

/-- Answers a request. The correlation id is the one that the client sends, or a new one; it is sent back, save
    with the answer to a failure that was not expected. -/
def handle (app : App) (r : Request) : Outcome × App :=
  let (generated, log) := app.log.next
  let id := (r.header? correlationHeader).getD generated
  let (result, app) := respond { app with log := log.bind id } r
  let app := { app with log := app.log.clear }
  match result with
  | .ok a => ({ answer := { a with headers := a.headers ++ [(correlationHeader, id)] } }, app)
  | .error e => ({ answer := .unexpected app.settings.debug e, raised := some e }, app)

end App

end Curation.Http
