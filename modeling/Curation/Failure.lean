import Curation.Text.Quoted
import Curation.Actor
import Curation.Files.Fault

/-! Why an operation fails, and the words and the status code for it. -/

namespace Curation

/-- What is wrong with one field of a request. -/
structure FieldError where
  field : String
  message : String
  code : String
  deriving DecidableEq, Repr

/-- Why an authenticated actor may not do something. -/
inductive Denial where
  /-- The credential lacks a scope. -/
  | scope (s : Scope)
  /-- The actor neither owns the collection nor moderates. -/
  | notOwner
  /-- The actor may not move the collection to the status asked for. -/
  | status
  /-- A reason given in words. -/
  | other (text : String)
  deriving DecidableEq, Repr

def Denial.message : Denial → String
  | .scope s => s!"Your credential does not carry the '{s.word}' scope"
  | .notOwner => "You don't have permission to do this"
  | .status => "You don't have permission to set this status!"
  | .other text => text

/-- The sets of words that stand for a status, a role or a scope. -/
inductive Vocabulary where
  | status
  | role
  | scope
  deriving DecidableEq, Repr

def Vocabulary.name : Vocabulary → String
  | .status => "CollectionStatus"
  | .role => "UserRole"
  | .scope => "Scope"

/-- A value that cannot be what it is used for. -/
inductive BadValue where
  /-- A word that stands for nothing in its vocabulary. -/
  | word (v : Vocabulary) (w : String)
  | noId
  | noOwner
  | colorWithoutIcon
  /-- An integer that is written with too many digits. -/
  | hugeInteger (digits : Nat)
  /-- A path that holds the character zero. -/
  | nullCharacter
  /-- A text that does not write an integer. -/
  | notInteger (text : String)
  /-- A text that does not write a number. -/
  | notNumber (text : String)
  /-- A text that is no word for true or false. -/
  | notTruth (text : String)
  /-- A text that does not write a time. -/
  | notTime (text : String)
  /-- A part of a time that is out of its range, in words. -/
  | timeRange (text : String)
  /-- The name of a driver that consists of too many parts. -/
  | driverParts
  /-- A pattern of paths in which names stand twice. -/
  | repeatedName (names : List String) (path : String)
  deriving DecidableEq, Repr

def BadValue.message : BadValue → String
  | .word v w => Text.quoted w ++ " is not a valid " ++ v.name
  | .noId => "Collection ID is required"
  | .noOwner => "Collection owner is required"
  | .colorWithoutIcon => "Collection color requires an icon"
  | .hugeInteger digits =>
    s!"Exceeds the limit (4300 digits) for integer string conversion: value has {digits} digits; " ++
      "use sys.set_int_max_str_digits() to increase the limit"
  | .nullCharacter => "embedded null byte"
  | .notInteger text =>
    "invalid literal for int() with base 10: " ++ String.ofList ((Text.quoted text).toList.take 200)
  | .notNumber text => "could not convert string to float: " ++ Text.quoted text
  | .notTruth text => "String is not true/false: " ++ Text.quoted text
  | .notTime text => "Invalid isoformat string: " ++ Text.quoted text
  | .timeRange text => text
  | .driverParts => "too many values to unpack (expected 2)"
  | .repeatedName names path =>
    "Duplicated param name" ++ (if names.length = 1 then "" else "s") ++ " " ++ ", ".intercalate names ++ " at path " ++
      path

/-- A value of a kind that cannot be used, or a call that cannot be made. -/
inductive BadType where
  /-- A time that is kept as something other than a text. -/
  | timeNotText
  /-- A call that gives a parameter a second value. -/
  | repeatedParameter (callee parameter : String)
  deriving DecidableEq, Repr

def BadType.message : BadType → String
  | .timeNotText => "fromisoformat: argument must be str"
  | .repeatedParameter callee parameter =>
    callee ++ "() got multiple values for argument '" ++ parameter ++ "'"

/-- A number or a time that is out of range. -/
inductive Overflow where
  /-- A time before the year 1 or after the year 9999. -/
  | date
  /-- An integer of more than 64 bits, sent to the database. -/
  | integer
  deriving DecidableEq, Repr

def Overflow.message : Overflow → String
  | .date => "date value out of range"
  | .integer => "Python int too large to convert to SQLite INTEGER"

/-- Why the database refuses a statement. -/
inductive Refusal where
  /-- The statement breaks a key, a reference or a required value. -/
  | integrity
  /-- The database cannot run the statement. -/
  | operational
  /-- The address of the database cannot be read. -/
  | argument
  /-- There is no such kind of database, or no such way to reach it. -/
  | dialect
  /-- The way to reach the database does not suit the program. -/
  | request
  /-- A value is of a kind that the database does not take. -/
  | programming
  /-- The session has to be rolled back before it can be used again. -/
  | pendingRollback
  deriving DecidableEq, Repr

/-- The name of the kind of refusal. -/
def Refusal.kind : Refusal → String
  | .integrity => "IntegrityError"
  | .operational => "OperationalError"
  | .argument => "ArgumentError"
  | .dialect => "NoSuchModuleError"
  | .request => "InvalidRequestError"
  | .programming => "ProgrammingError"
  | .pendingRollback => "PendingRollbackError"

/-- What stands for the words of the database, which are its own. -/
def Refusal.message (_ : Refusal) : String := "<database error>"

/-- Why an operation fails. -/
inductive Failure where
  /-- No credential, or a bad one; in the standard words unless others are given. -/
  | unauthenticated (text : Option String := none)
  | forbidden (why : Denial)
  /-- There is no such collection, or the viewer may not know of it. -/
  | notFound (id : String)
  | invalid (errors : List FieldError)
  /-- An edit names a project that does not exist. -/
  | missingProject (id : String)
  /-- The asset store failed. -/
  | storage (text : String)
  /-- A transaction was undone because the database refused a statement of it. -/
  | persistence (text : String := "")
  /-- A failure of the domain of no kind of its own. -/
  | general (text : String)
  | badValue (v : BadValue)
  | badType (t : BadType)
  | overflow (o : Overflow)
  /-- The database refused a statement outside a transaction block. -/
  | database (r : Refusal)
  /-- The driver of the database is not installed. -/
  | noDriver (name : String)
  /-- Nobody answers at an address. -/
  | connectionRefused (host : String) (port : Int)
  /-- An operation on files fails. -/
  | files (e : Files.FileError)
  /-- A rule about the form of the application is broken. -/
  | assertion (text : String)
  /-- An answer does not have the form that is promised. -/
  | badAnswer
  /-- A value is nested too deeply to be read; tells whether it is a record that is one too many. -/
  | tooDeep (record : Bool)
  /-- The client went away before its request was read. -/
  | disconnected
  /-- Anything else, in words. -/
  | runtime (text : String)
  deriving DecidableEq, Repr

namespace Failure

/-- The failure of a single field. -/
def field (name message code : String) : Failure := .invalid [⟨name, message, code⟩]

/-- The status that a request asks for is not a word for one. -/
def unknownStatus (w : String) : Failure := .field "status" s!"Unknown status '{w}'" "status_invalid"

/-- The name of the kind of failure, which answers carry. -/
def kind : Failure → String
  | .unauthenticated _ => "UnauthenticatedError"
  | .forbidden _ => "ForbiddenError"
  | .notFound _ => "NotFoundError"
  | .invalid _ => "ValidationFailedError"
  | .missingProject _ => "ReferencedEntityMissingError"
  | .storage _ => "StorageFailureError"
  | .persistence _ => "PersistenceFailureError"
  | .general _ => "CollectionHubError"
  | .badValue _ => "ValueError"
  | .overflow _ => "OverflowError"
  | .badType _ => "TypeError"
  | .database r => r.kind
  | .noDriver _ => "ModuleNotFoundError"
  | .connectionRefused _ _ => "ConnectionRefusedError"
  | .files e => e.fault.kind
  | .assertion _ => "AssertionError"
  | .badAnswer => "ValidationError"
  | .tooDeep _ => "RecursionError"
  | .disconnected => "ClientDisconnect"
  | .runtime _ => "RuntimeError"

/-- The failure in words. -/
def message : Failure → String
  | .unauthenticated text => text.getD "Authentication required"
  | .forbidden why => why.message
  | .notFound id => s!"Collection '{id}' not found"
  | .invalid errors => "; ".intercalate (errors.map fun e => e.field ++ ": " ++ e.message)
  | .missingProject id => s!"The specified project {id} does not exist!"
  | .storage text => text
  | .persistence text => text
  | .general text => text
  | .badValue v => v.message
  | .badType t => t.message
  | .overflow o => o.message
  | .database r => r.message
  | .noDriver name => s!"No module named '{name}'"
  | .connectionRefused host port => s!"[Errno 111] Connect call failed ('{host}', {port})"
  | .files e => e.message
  | .assertion text => text
  | .badAnswer => ""
  | .tooDeep record =>
    "maximum recursion depth exceeded while decoding a JSON " ++ (if record then "object" else "array") ++
      " from a unicode string"
  | .disconnected => ""
  | .runtime text => text

/-- The failure is one of the domain, which an answer to a client names. -/
def isDomain : Failure → Bool
  | .unauthenticated _ | .forbidden _ | .notFound _ | .invalid _ | .missingProject _ | .storage _
  | .persistence _ | .general _ => true
  | _ => false

/-- The status code of the answer to a request that fails so. -/
def httpStatus : Failure → Nat
  | .unauthenticated _ => 401
  | .forbidden _ => 403
  | .notFound _ => 404
  | .invalid _ => 400
  | .missingProject _ => 400
  | _ => 500

/-- The failure of a kind that is made of some texts: none, a single one, or several that are shown together. -/
def ofTexts (kind : String) (texts : List String) : Failure :=
  let text := match texts with
    | [] => ""
    | [t] => t
    | _ => Text.quotedTuple texts
  match kind with
  | "UnauthenticatedError" => .unauthenticated texts.head?
  | "ForbiddenError" => .forbidden ((texts.head?.map Denial.other).getD .notOwner)
  | "NotFoundError" => .notFound text
  | "ReferencedEntityMissingError" => .missingProject text
  | "StorageFailureError" => .storage text
  | "PersistenceFailureError" => .persistence text
  | "CollectionHubError" => .general text
  | _ => .runtime text

/-- What a failure inside a transaction block becomes for the caller of the block: a refusal of the
    database is a failure to persist, and any other failure is kept. -/
def aborted : Failure → Failure
  | .database r => .persistence r.message
  | e => e

end Failure

end Curation
