import Curation.Json.Value
import Curation.Schema.Scalar
import Curation.Settings.EnvFile
import Curation.Text.Lower

/-! The settings of an installation: what they are, where they come from, and the rules they keep. -/

namespace Curation

open Json (Value)
open Schema (Reading Fault Mismatch)

/-- What an installation is for. -/
inductive Environment where
  | development
  | production
  | testing
  deriving DecidableEq, Repr

namespace Environment

def all : List Environment := [development, production, testing]

def word : Environment → String
  | development => "development"
  | production => "production"
  | testing => "testing"

end Environment

/-- How grave an entry of the log is. -/
inductive Level where
  | debug
  | info
  | warning
  | error
  | critical
  deriving DecidableEq, Repr

namespace Level

def all : List Level := [debug, info, warning, error, critical]

def word : Level → String
  | debug => "DEBUG"
  | info => "INFO"
  | warning => "WARNING"
  | error => "ERROR"
  | critical => "CRITICAL"

/-- Graver levels have higher ranks. -/
def rank : Level → Nat
  | debug => 10
  | info => 20
  | warning => 30
  | error => 40
  | critical => 50

end Level

/-- How entries of the log are written. -/
inductive LogFormat where
  | json
  | console
  deriving DecidableEq, Repr

namespace LogFormat

def all : List LogFormat := [json, console]

def word : LogFormat → String
  | json => "json"
  | console => "console"

end LogFormat

/-- Where blobs are kept. -/
inductive Backend where
  | local
  | s3
  deriving DecidableEq, Repr

namespace Backend

def all : List Backend := [.local, s3]

def word : Backend → String
  | .local => "local"
  | s3 => "s3"

end Backend

/-- The settings of an installation. -/
structure Settings where
  appName : String := "CollectionHub"
  appVersion : String := "0.1.0"
  environment : Environment := .development
  debug : Bool := false
  apiRoot : String := "/v2"
  host : String := "0.0.0.0"
  port : Int := 8000
  workers : Int := 1
  databaseUrl : String := "sqlite+aiosqlite:///./ch_data/collectionhub.db"
  poolSize : Int := 5
  maxOverflow : Int := 10
  poolTimeout : Int := 30
  poolRecycle : Int := 3600
  echo : Bool := false
  sqliteReferences : Bool := true
  logLevel : Level := .info
  logFormat : LogFormat := .json
  cacheTtl : Int := 1800
  /-- The address that blobs are served under, without a slash at its end. -/
  cdnUrl : String := "http://localhost:8000/cdn"
  iconSpace : String := "data"
  maxIconSize : Int := 262144
  backend : Backend := .local
  storagePath : String := "./ch_data/assets"
  bucket : Option String := none
  region : String := "us-east-1"
  accessKeyId : Option String := none
  secretAccessKey : Option String := none
  endpointUrl : Option String := none
  deriving Repr

namespace Settings

/-! ### Values -/

/-- Reads one of some words. -/
def choice (all : List α) (word : α → String) (v : Value) : Reading α :=
  match all.find? fun a => v.text? == some (word a) with
  | some a => pure a
  | none => .fault (.notWord (all.map word))

/-- The text without the slashes at its end. -/
def withoutSlashes (s : String) : String :=
  String.ofList (s.toList.reverse.dropWhile (· == '/')).reverse

/-! ### Sources -/

/-- Where settings come from. Of two sources that give a setting the first one wins. -/
structure Sources where
  given : Keyed Value := []
  environment : List (String × String) := []
  /-- The text of a file of variables. -/
  file : Option String := none

/-- What the name of every variable that is a setting starts with, in lower case. -/
def variableStart : String := "collectionhub_"

/-- The value of a variable whose name is the given one in any letter case. -/
def fromVariables? (entries : List (String × α)) (name : String) : Option α :=
  EnvFile.lastValue? (entries.map fun (k, v) => (Text.lower k, v)) (variableStart ++ name)

namespace Sources

/-- The value that the sources give to a setting. -/
def find? (s : Sources) (name : String) : Option Value :=
  s.given.get? name <|>
    (fromVariables? s.environment name).map .text <|>
    ((fromVariables? ((s.file.map (EnvFile.entries s.environment)).getD []) name).bind id).map .text

end Sources

/-- Reads every setting that the sources give; the others have their defaults. -/
def readFields (sources : Sources) : Reading Settings :=
  let d : Settings := {}
  let field {α : Type} (name : String) (default : α) (read : Value → Reading α) : Reading α :=
    match sources.find? name with
    | some v => (read v).under (.field name)
    | none => pure default
  Settings.mk
    <$> field "app_name" d.appName Schema.text
    <*> field "app_version" d.appVersion Schema.text
    <*> field "environment" d.environment (choice Environment.all Environment.word)
    <*> field "debug" d.debug Schema.truth
    <*> field "api_prefix" d.apiRoot Schema.text
    <*> field "host" d.host Schema.text
    <*> field "port" d.port Schema.integer
    <*> field "workers" d.workers Schema.integer
    <*> field "database_url" d.databaseUrl Schema.text
    <*> field "db_pool_size" d.poolSize Schema.integer
    <*> field "db_max_overflow" d.maxOverflow Schema.integer
    <*> field "db_pool_timeout" d.poolTimeout Schema.integer
    <*> field "db_pool_recycle" d.poolRecycle Schema.integer
    <*> field "db_echo" d.echo Schema.truth
    <*> field "db_sqlite_foreign_keys" d.sqliteReferences Schema.truth
    <*> field "log_level" d.logLevel (choice Level.all Level.word)
    <*> field "log_format" d.logFormat (choice LogFormat.all LogFormat.word)
    <*> field "cache_ttl_seconds" d.cacheTtl Schema.integer
    <*> field "cdn_url" d.cdnUrl (fun v => withoutSlashes <$> Schema.text v)
    <*> field "icon_namespace" d.iconSpace Schema.text
    <*> field "max_icon_size" d.maxIconSize Schema.integer
    <*> field "storage_backend" d.backend (choice Backend.all Backend.word)
    <*> field "storage_path" d.storagePath Schema.text
    <*> field "s3_bucket" d.bucket (Schema.optional Schema.text)
    <*> field "s3_region" d.region Schema.text
    <*> field "s3_access_key_id" d.accessKeyId (Schema.optional Schema.text)
    <*> field "s3_secret_access_key" d.secretAccessKey (Schema.optional Schema.text)
    <*> field "s3_endpoint_url" d.endpointUrl (Schema.optional Schema.text)

/-! ### Rules -/

/-- The database is a file, or in memory. -/
def isSqlite (s : Settings) : Bool := s.databaseUrl.startsWith "sqlite"

/-- A database in a file cannot be shared by several workers. -/
def workersMessage (s : Settings) : String :=
  "SQLite does not support multiple worker processes. " ++
    s!"Requested {s.workers} workers, but SQLite requires workers=1. " ++
    "Either use --workers 1 or switch to PostgreSQL."

/-- The rule that the settings as a whole break, if they break one; the first of two. -/
def brokenRule? (s : Settings) : Option String :=
  if 1 < s.workers && s.isSqlite then some s.workersMessage
  else if s.backend == .s3 && (s.bucket.getD "").isEmpty then
    some "storage_backend 's3' requires s3_bucket to be set"
  else none

/-- The settings that the sources give, if every field is right and no rule is broken. -/
def load (sources : Sources) : Except (List Mismatch) Settings := do
  let s ← (readFields sources).toExcept
  match s.brokenRule? with
  | some text => .error [⟨[], .rule text⟩]
  | none => .ok s

/-- The settings by the names that they are read by. -/
def toFields (s : Settings) : Keyed Value := [
  ("app_name", .text s.appName), ("app_version", .text s.appVersion),
  ("environment", .text s.environment.word), ("debug", .boolean s.debug),
  ("api_prefix", .text s.apiRoot), ("host", .text s.host), ("port", .integer s.port),
  ("workers", .integer s.workers), ("database_url", .text s.databaseUrl),
  ("db_pool_size", .integer s.poolSize), ("db_max_overflow", .integer s.maxOverflow),
  ("db_pool_timeout", .integer s.poolTimeout), ("db_pool_recycle", .integer s.poolRecycle),
  ("db_echo", .boolean s.echo), ("db_sqlite_foreign_keys", .boolean s.sqliteReferences),
  ("log_level", .text s.logLevel.word), ("log_format", .text s.logFormat.word),
  ("cache_ttl_seconds", .integer s.cacheTtl), ("cdn_url", .text s.cdnUrl),
  ("icon_namespace", .text s.iconSpace), ("max_icon_size", .integer s.maxIconSize),
  ("storage_backend", .text s.backend.word), ("storage_path", .text s.storagePath),
  ("s3_bucket", .ofOption .text s.bucket), ("s3_region", .text s.region),
  ("s3_access_key_id", .ofOption .text s.accessKeyId),
  ("s3_secret_access_key", .ofOption .text s.secretAccessKey),
  ("s3_endpoint_url", .ofOption .text s.endpointUrl)]

/-- The names of the variables that are settings. -/
def variableNames : List String :=
  (toFields {}).keys.map fun name =>
    String.ofList ((variableStart ++ name).toList.map Char.toUpper)

end Settings

end Curation
