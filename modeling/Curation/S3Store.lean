import Curation.LocalStore
import Curation.Settings

/-! A store that keeps blobs in a bucket of a remote service. What it asks of the service is data, and so is how
    the service answers. -/

namespace Curation

open Json (Value)
open Schema (Reading Mismatch)

/-- The bucket, and how it is reached. -/
structure S3Settings where
  bucket : String
  region : String
  accessKeyId : Option String := none
  secretAccessKey : Option String := none
  endpointUrl : Option String := none
  deriving DecidableEq, Repr

namespace S3Settings

/-- Reads settings from a record. -/
def ofFields (fields : Keyed Value) : Reading S3Settings :=
  S3Settings.mk
    <$> Schema.required "bucket" Schema.text fields
    <*> Schema.required "region" Schema.text fields
    <*> Schema.withDefault "access_key_id" none (Schema.optional Schema.text) fields
    <*> Schema.withDefault "secret_access_key" none (Schema.optional Schema.text) fields
    <*> Schema.withDefault "endpoint_url" none (Schema.optional Schema.text) fields

def toFields (s : S3Settings) : Keyed Value := [
  ("bucket", .text s.bucket), ("region", .text s.region),
  ("access_key_id", .ofOption .text s.accessKeyId),
  ("secret_access_key", .ofOption .text s.secretAccessKey),
  ("endpoint_url", .ofOption .text s.endpointUrl)]

end S3Settings

/-- A call to the service: its name and its arguments. -/
structure S3Call where
  name : String
  arguments : Keyed Value

/-- How a call to the service fails. -/
inductive S3Fault where
  /-- The service refuses the operation, with a code and a message if it gives them; or it has refused it for the
      last time, after some attempts. -/
  | refused (operation : String) (code message attempts : Option String)
  /-- The service cannot be used. -/
  | unusable (text : String)
  /-- Anything else. -/
  | other (text : String)
  deriving DecidableEq, Repr

namespace S3Fault

def unspecified : S3Fault := .unusable "An unspecified error occurred"

def noCredentials : S3Fault := .unusable "Unable to locate credentials"

def noConnection (url : String) : S3Fault := .unusable s!"Could not connect to the endpoint URL: \"{url}\""

def timeout (url : String) : S3Fault := .unusable s!"Connect timeout on endpoint URL: \"{url}\""

/-- The fault in words. -/
def text : S3Fault → String
  | refused operation code message attempts =>
    "An error occurred (" ++ code.getD "Unknown" ++ ") when calling the " ++ operation ++ " operation" ++
      ((attempts.map fun n => " (reached max retries: " ++ n ++ ")").getD "") ++ ": " ++ message.getD "Unknown"
  | unusable text => text
  | other text => text

end S3Fault

/-- The store, and whether it has a client of the service yet. -/
structure S3Store where
  settings : S3Settings
  connected : Bool := false
  deriving DecidableEq, Repr

namespace S3Store

/-- What the client is made with: credentials if there is a key, an address if one is given. -/
def clientCall (s : S3Settings) : S3Call :=
  let credentials : Keyed Value := match s.accessKeyId with
    | some key =>
      if key.isEmpty then []
      else [("aws_access_key_id", .text key), ("aws_secret_access_key", .ofOption .text s.secretAccessKey)]
    | none => []
  let address : Keyed Value := match s.endpointUrl with
    | some url => if url.isEmpty then [] else [("endpoint_url", .text url)]
    | none => []
  ⟨"client", [("service", .text "s3"), ("region_name", .text s.region)] ++ credentials ++ address⟩

def uploadCall (s : S3Settings) (contentType path : String) (data : ByteArray) : S3Call :=
  ⟨"put_object", [("Bucket", .text s.bucket), ("Key", .text path), ("Body", .integer data.size),
    ("ContentType", .text contentType)]⟩

def deleteCall (s : S3Settings) (path : String) : S3Call :=
  ⟨"delete_object", [("Bucket", .text s.bucket), ("Key", .text path)]⟩

def testCall (s : S3Settings) : S3Call := ⟨"head_bucket", [("Bucket", .text s.bucket)]⟩

/-- The calls for one request: the client is made before the first of them. -/
def send (s : S3Store) (call : S3Call) : List S3Call × S3Store :=
  (if s.connected then [call] else [clientCall s.settings, call], { s with connected := true })

/-- The failure of a request, after what it was about. -/
def failure (start : String) : S3Fault → Failure
  | .other text => .runtime text
  | fault => .storage (start ++ fault.text)

/-- Stores a blob, if the service does not fail. -/
def upload (s : S3Store) (contentType path : String) (data : ByteArray) (fault : Option S3Fault) :
    Except Failure StoredBlob × List S3Call × S3Store :=
  (match fault with
    | some f => .error (failure "Failed to upload file to S3: " f)
    | none => .ok ⟨path, contentType, data.size⟩,
  s.send (uploadCall s.settings contentType path data))

/-- Deletes a blob, if the service does not fail. -/
def delete (s : S3Store) (path : String) (fault : Option S3Fault) :
    Except Failure Unit × List S3Call × S3Store :=
  (match fault with
    | some f => .error (failure "Failed to delete file from S3: " f)
    | none => .ok (),
  s.send (deleteCall s.settings path))

/-- Whether the bucket can be reached, and what there is to say about it. -/
def test (s : S3Store) (fault : Option S3Fault) : Except Failure (Bool × String) × List S3Call × S3Store :=
  let s3 := s.settings
  (match fault with
    | none =>
      .ok (true, s!"S3 connection successful. Bucket '{s3.bucket}' is accessible in region '{s3.region}'.")
    | some (.refused operation code message attempts) =>
      let text := message.getD (S3Fault.refused operation code message attempts).text
      .ok (false, "S3 connection failed (" ++ code.getD "Unknown" ++ "): " ++ text)
    | some (.unusable text) => .ok (false, "S3 connection failed: " ++ text)
    | some (.other text) => .error (.runtime text),
  s.send (testCall s3))

end S3Store

end Curation
