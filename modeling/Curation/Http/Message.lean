import Curation.Actor
import Curation.Json.Encoding
import Curation.Json.Parse
import Curation.Payload
import Curation.Request
import Curation.Settings
import Curation.Text.Percent

/-! Requests and answers, and the forms in which failures are answered. -/

namespace Curation.Http

open Json (Value)
open Schema (Reading Mismatch)

/-- A request. The host has found out who sends it, and how much room there is to read it. -/
structure Request where
  method : String := "GET"
  /-- The path and the query as they were sent. -/
  target : String
  headers : List (String × String) := []
  actor : Option Actor := none
  /-- The body, piece by piece. -/
  chunks : List ByteArray := []
  /-- The client goes away after the last piece. -/
  cut : Bool := false
  /-- How deeply lists and records in it may be nested for the host to read them. -/
  nesting : Nat

namespace Request

/-- The path, with its percent signs resolved. -/
def path (r : Request) : String := Text.percentDecode (Text.cut '?' r.target).1

/-- The query as it was sent. -/
def query (r : Request) : String := ((Text.cut '?' r.target).2).getD ""

/-- The value of the first header with a name, which may be in any letter case. -/
def header? (r : Request) (name : String) : Option String :=
  (r.headers.find? fun (k, _) => k.toList.map Char.toLower == name.toList.map Char.toLower).map (·.2)

/-- The body of an upload; pieces without bytes are passed over. -/
def payload (r : Request) : Payload := .stream (r.chunks.filter fun c => c.size ≠ 0) r.cut

/-- The bytes of the body. -/
def bytes (r : Request) : List UInt8 := r.chunks.flatMap fun c => c.toList

end Request

/-- What an answer carries. -/
inductive Content where
  | none
  | json (v : Value)
  /-- A page that describes the interface, whose text is not looked at here. -/
  | page (contentType : String)

/-- An answer. -/
structure Answer where
  status : Nat
  headers : List (String × String) := []
  content : Content := .none

namespace Answer

/-- An answer with a value. -/
def ofValue (status : Nat) (v : Value) (headers : List (String × String) := []) : Answer :=
  { status, headers := headers ++ [("content-type", "application/json")], content := .json v }

/-- An answer that says no more than that the request was carried out. -/
def done : Answer := { status := 204 }

/-- An answer that says in a few words what is wrong. -/
def detail (status : Nat) (text : String) (headers : List (String × String) := []) : Answer :=
  ofValue status (.record [("detail", .text text)]) headers

def notFound : Answer := detail 404 "Not Found"

/-- The path is known, but only for other methods. -/
def wrongMethod (allowed : List String) : Answer :=
  detail 405 "Method Not Allowed" [("allow", ", ".intercalate allowed)]

/-- The body cannot be made out. -/
def unreadableBody : Answer := detail 400 "There was an error parsing the body"

/-- The place of a mismatch in words. -/
def placeText (m : Mismatch) : String :=
  if m.path.isEmpty then "body" else ".".intercalate (m.path.map Schema.Step.text)

/-- The details of an answer to a request with faults. -/
def details (es : List FieldError) : Value :=
  .list (es.map fun e => .record [("field", .text e.field), ("message", .text e.message), ("code", .text e.code)])

/-- The answer to a request that does not have the form asked for. -/
def ofMismatches (ms : List Mismatch) : Answer :=
  ofValue 400 (.record [("error", .text "ValidationFailedError"), ("message", .text "Invalid request"),
    ("details", details (ms.map fun m => ⟨placeText m, m.fault.message, m.fault.code⟩))])

/-- What is said of a failure that is the fault of the installation. -/
def hiddenMessage : String := "An unexpected error occurred"

/-- The answer to a request that fails with a failure of the domain. Failures of the installation are not
    described, unless its settings say so. -/
def ofFailure (debug : Bool) (e : Failure) : Answer :=
  let message := if 500 ≤ e.httpStatus && !debug then hiddenMessage else e.message
  ofValue e.httpStatus (.record ([("error", .text e.kind), ("message", .text message)] ++
    match e with
    | .invalid es => [("details", details es)]
    | _ => []))

/-- The answer to a request that fails with any other failure. -/
def unexpected (debug : Bool) (e : Failure) : Answer :=
  ofValue 500 (.record [("error", .text "Internal server error"),
    ("message", .text (if debug then e.message else hiddenMessage))])

end Answer

/-! ### Bodies -/

/-- The body of a request, as far as it is looked at. -/
inductive Body where
  | absent
  | value (v : Value)
  /-- Bytes that are not said to be in the interchange format. -/
  | bytes

/-- A content type names the interchange format. -/
def isJson (contentType : String) : Bool :=
  let kind := String.ofList ((Text.strip (Text.cut ';' contentType).1).toList.map Char.toLower)
  match Text.splitAt '/' kind with
  | ["application", sub] => sub == "json" || sub.endsWith "+json"
  | _ => false

/-- The body of a request, or the answer to a request whose body cannot be read. -/
def readBody (r : Request) : Except Answer Body :=
  if r.cut then .error Answer.unreadableBody
  else if r.bytes.isEmpty then .ok .absent
  else if !((r.header? "content-type").any isJson) then .ok .bytes
  else match Json.decode? r.bytes with
    | none => .error Answer.unreadableBody
    | some points =>
      match Json.read r.nesting points with
      | .ok v => .ok (.value v)
      | .error (.malformed position) =>
        .error (Answer.ofMismatches [⟨[.item position], .malformedBody⟩])
      | .error _ => .error Answer.unreadableBody

/-- Reads the fields of a body. -/
def Body.read (read : Keyed Value → Reading α) : Body → Reading α
  | .absent => .fault .missing
  | .value (.record fields) => read fields
  | _ => .fault .notBody

end Curation.Http
