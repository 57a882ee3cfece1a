import Curation.Collection
import Curation.Json.Value
import Curation.Schema.Scalar
import Curation.Service

/-! The bodies of requests and of answers: what a client sends to create or to edit a collection, and how a
    collection and a failure are shown to it. -/

namespace Curation.Request

open Json (Value)
open Schema (Reading)

/-- What a client sends to create a collection. -/
structure Creation where
  title : String
  description : String
  projects : List String := []
  deriving DecidableEq, Repr

namespace Creation

def ofFields (fields : Keyed Value) : Reading Creation :=
  Creation.mk
    <$> Schema.required "title" Schema.text fields
    <*> Schema.required "description" Schema.text fields
    <*> Schema.withDefault "projects" [] (Schema.list Schema.text) fields

def toFields (c : Creation) : Keyed Value := [
  ("title", .text c.title), ("description", .text c.description), ("projects", .texts c.projects)]

end Creation

/-- Reads what a client sends to edit a collection; a field that is null is not given. -/
def editOfFields (fields : Keyed Value) : Reading Service.Edit :=
  Service.Edit.mk
    <$> Schema.withDefault "title" none (Schema.optional Schema.text) fields
    <*> Schema.withDefault "description" none (Schema.optional Schema.text) fields
    <*> Schema.withDefault "status" none (Schema.optional Schema.text) fields
    <*> Schema.withDefault "new_projects" none (Schema.optional (Schema.list Schema.text)) fields

def editToFields (e : Service.Edit) : Keyed Value := [
  ("title", .ofOption .text e.title), ("description", .ofOption .text e.description),
  ("status", .ofOption .text e.status), ("new_projects", .ofOption .texts e.projects)]

/-- What a client is told of a failure. -/
structure ErrorBody where
  error : String
  message : String
  details : Option (List (Keyed String)) := none
  deriving DecidableEq, Repr

namespace ErrorBody

def ofFields (fields : Keyed Value) : Reading ErrorBody :=
  ErrorBody.mk
    <$> Schema.required "error" Schema.text fields
    <*> Schema.required "message" Schema.text fields
    <*> Schema.withDefault "details" none (Schema.optional (Schema.list (Schema.record Schema.text))) fields

def toFields (e : ErrorBody) : Keyed Value := [
  ("error", .text e.error), ("message", .text e.message),
  ("details", .ofOption (fun ds => .list (ds.map fun d => .record (d.map fun (k, v) => (k, .text v))))
    e.details)]

end ErrorBody

/-- A form that a record is read in: its name, the names of its fields, and how it is read and shown. -/
structure Form where
  name : String
  fields : List String
  normal : Keyed Value → Reading (Keyed Value)

def creationForm : Form where
  name := "CreateCollectionRequest"
  fields := ["title", "description", "projects"]
  normal fields := Creation.toFields <$> Creation.ofFields fields

def editForm : Form where
  name := "EditCollectionRequest"
  fields := ["title", "description", "status", "new_projects"]
  normal fields := editToFields <$> editOfFields fields

def errorForm : Form where
  name := "ErrorResponse"
  fields := ["error", "message", "details"]
  normal fields := ErrorBody.toFields <$> ErrorBody.ofFields fields

/-- Reads a value in a form: all fields of it, and the names of those that were given. -/
def Form.read (f : Form) : Value → Reading (Keyed Value × List String)
  | .record fields => (·, f.fields.filter fun n => (Keyed.get? fields n).isSome) <$> f.normal fields
  | _ => .fault (.notForm f.name)

/-- A collection as a client is shown it, if its colour can be read as a number. -/
def ofCollection (c : Collection) : Reading Value :=
  (fun color => .record [
    ("id", .text c.id), ("user", .text c.owner), ("title", .text c.title),
    ("description", .text c.description), ("created", .text c.created.answerText),
    ("updated", .text c.updated.answerText), ("icon_url", .ofOption .text c.iconUrl),
    ("color", .ofOption .integer color), ("status", .text c.status.word), ("projects", .texts c.projects)])
    <$> (Schema.optional Schema.integer (.ofOption Cell.toValue c.color)).under (.field "color")

/-- Several collections as a client is shown them. -/
def ofCollections (cs : List Collection) : Reading Value := .list <$> each cs
where
  each : List Collection → Reading (List Value)
    | [] => pure []
    | c :: cs => List.cons <$> ofCollection c <*> each cs

end Curation.Request
