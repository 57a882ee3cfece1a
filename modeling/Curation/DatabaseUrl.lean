import Curation.Cell
import Curation.Failure
import Curation.Text.Integer
import Curation.Text.Percent

/-! Addresses of databases: which kind of database it is and how it is reached, where it lies, and with what
    options. A password is never shown. -/

namespace Curation

/-- The parts of an address. -/
structure DatabaseUrl where
  /-- The kind of the database, and after a plus sign the way it is reached. -/
  driver : String
  user : Option String := none
  password : Option String := none
  host : Option String := none
  port : Option Int := none
  /-- What is after the slash. -/
  name : Option String := none
  /-- The options that have values, in the order in which they stand. -/
  options : List (String × String) := []
  deriving DecidableEq, Repr

namespace DatabaseUrl

/-- A character may stand in the name of a driver; of characters outside the ASCII range, every one that shows. -/
def isDriverChar (c : Char) : Bool :=
  c.isAlphanum || c == '_' || c == '+' || (0x80 ≤ c.toNat && Text.isPrintable c)

/-- The characters before the last occurrence of one, and those after it. -/
def cutLast? (sep : Char) (cs : List Char) : Option (List Char × List Char) :=
  let after := cs.reverse.takeWhile (· != sep)
  match cs.reverse.drop after.length with
  | [] => none
  | _ :: before => some (before.reverse, after.reverse)

/-- Reads a user and a password before an at sign, if they are there. -/
def readUser (cs : List Char) : Option (List Char) × Option (List Char) × List Char :=
  let user := cs.takeWhile fun c => c != ':' && c != '/'
  let withPassword := match cs.drop user.length with
    | ':' :: rest =>
      let password := rest.takeWhile (· != '@')
      match rest.drop password.length with
      | _ :: rest => some (password, rest)
      | [] => none
    | _ => none
  match withPassword with
  | some (password, rest) => (some user, some password, rest)
  | none =>
    match cutLast? '@' user with
    | some (before, after) => (some before, none, after ++ cs.drop user.length)
    | none => (none, none, cs)

/-- Reads a host, which stands between brackets if it has colons. -/
def readHost (cs : List Char) : Option (List Char) × List Char :=
  let bracketed := match cs with
    | '[' :: rest =>
      let run := rest.takeWhile fun c => c != '/' && c != '?'
      match cutLast? ']' run with
      | some (host, after) => if host.isEmpty then none else some (host, after ++ rest.drop run.length)
      | none => none
    | _ => none
  match bracketed with
  | some (host, rest) => (some host, rest)
  | none =>
    let host := cs.takeWhile fun c => c != '/' && c != ':' && c != '?'
    (if host.isEmpty then none else some host, cs.drop host.length)

/-- Reads the part that a character starts, up to the first of some others. -/
def readPart (start : Char) (stops : List Char) (cs : List Char) : Option (List Char) × List Char :=
  match cs with
  | c :: rest =>
    if c == start then
      let part := rest.takeWhile fun c => !stops.contains c
      (some part, rest.drop part.length)
    else (none, cs)
  | [] => (none, [])

/-- Reads an integer. -/
def readInteger (text : String) : Except BadValue Int :=
  match Text.integerOf text with
  | .ok n => .ok n
  | .error .unclear => .error (.notInteger text)
  | .error (.tooLong digits) => .error (.hugeInteger digits)

/-- Reads an address. -/
def ofText (s : String) : Except Failure DatabaseUrl :=
  let driver := s.toList.takeWhile isDriverChar
  match driver, s.toList.drop driver.length with
  | _ :: _, ':' :: '/' :: '/' :: rest => do
    let (user, password, rest) := readUser rest
    let (host, rest) := readHost rest
    let (port, rest) := readPart ':' ['/', '?'] rest
    let (name, rest) := readPart '/' ['?'] rest
    let (options, _) := readPart '?' ['\n'] rest
    let decoded (part : Option (List Char)) := part.map fun cs => Text.percentDecode (String.ofList cs)
    return {
      driver := String.ofList driver
      user := decoded user
      password := decoded password
      host := host.map String.ofList
      port := ← (port.mapM fun cs => readInteger (String.ofList cs)).mapError .badValue
      name := decoded name
      options := ((options.map fun cs => Text.queryFields (String.ofList cs)).getD []).filter (·.2 ≠ "") }
  | _, _ => .error (.database .argument)

/-- The kind of the database. -/
def kind (u : DatabaseUrl) : String := (Text.cut '+' u.driver).1

/-- The value of an option. -/
def option? (u : DatabaseUrl) (name : String) : Option String := u.options.lookup name

/-- The options in the order of their names. -/
def optionsText (u : DatabaseUrl) : String :=
  let encode (s : String) := (Text.percentEncode (· == ' ') s).replace " " "+"
  "&".intercalate ((u.options.mergeSort fun a b => decide (a.1 ≤ b.1)).map fun (k, v) => encode k ++ "=" ++ encode v)

/-- The address with stars for the password. -/
def maskedText (u : DatabaseUrl) : String :=
  let encode (more : List Char) := Text.percentEncode fun c => (' ' :: '+' :: more).contains c
  let user := match u.user with
    | some user => encode [] user ++ (if u.password.isSome then ":***" else "") ++ "@"
    | none => ""
  let host := match u.host with
    | some host => if host.toList.contains ':' then "[" ++ host ++ "]" else host
    | none => ""
  u.driver ++ "://" ++ user ++ host ++ ((u.port.map fun n => ":" ++ toString n).getD "") ++
    ((u.name.map fun name => "/" ++ encode ['/'] name).getD "") ++
    (if u.options.isEmpty then "" else "?" ++ u.optionsText)

/-! ### Reaching a database -/

/-- What reaching a database takes. -/
inductive Driver where
  /-- A database in a file, for which nobody has to wait. -/
  | file
  /-- A database in a file, for which everybody has to wait. -/
  | waiting
  | server
  /-- A package that is not installed. -/
  | missing (package : String)
  deriving DecidableEq, Repr

/-- The drivers for a kind of database that need a package: its name where none is asked for, and those that may be
    asked for, each with its package. -/
def packaged (kind standard : String) (drivers : List (String × String)) : List (String × Driver) :=
  (kind, .missing standard) :: drivers.map fun (name, package) => (kind ++ "+" ++ name, .missing package)

/-- What each driver takes. -/
def drivers : List (String × Driver) :=
  let mysql := [
    ("mysqldb", "MySQLdb"), ("pymysql", "pymysql"), ("cymysql", "cymysql"), ("aiomysql", "aiomysql"),
    ("asyncmy", "asyncmy"), ("mysqlconnector", "mysql"), ("mariadbconnector", "mariadb"), ("pyodbc", "pyodbc")]
  [("sqlite+aiosqlite", .file), ("sqlite", .waiting), ("sqlite+pysqlite", .waiting),
    ("sqlite+pysqlcipher", .missing "pysqlcipher3"), ("postgresql+asyncpg", .server)] ++
  packaged "postgresql" "psycopg" [
    ("psycopg", "psycopg"), ("psycopg_async", "psycopg"), ("psycopg2", "psycopg2"),
    ("psycopg2cffi", "psycopg2cffi"), ("pg8000", "pg8000")] ++
  packaged "mysql" "MySQLdb" mysql ++ packaged "mariadb" "MySQLdb" mysql ++
  packaged "oracle" "oracledb" [
    ("oracledb", "oracledb"), ("oracledb_async", "oracledb"), ("cx_oracle", "cx_Oracle")] ++
  packaged "mssql" "pyodbc" [("pyodbc", "pyodbc"), ("aioodbc", "aioodbc"), ("pymssql", "pymssql")]

/-- What the driver of an address takes, if there is such a driver. -/
def driver? (u : DatabaseUrl) : Except Failure Driver :=
  if (u.option? "plugin").isSome then .error (.database .dialect)
  else if 2 < (Text.splitAt '+' u.driver).length then .error (.badValue .driverParts)
  else match drivers.lookup u.driver with
    | none => .error (.database .dialect)
    | some (.missing package) => .error (.noDriver package)
    | some d => .ok d

/-- The words for true and for false in options. -/
def trueWords : List String := ["true", "yes", "on", "y", "t", "1"]
def falseWords : List String := ["false", "no", "off", "n", "f", "0"]

/-- Reads the value of an option that is true or false. -/
def readTruth (text : String) : Except BadValue Bool :=
  let w := String.ofList ((Text.strip text).toList.map Char.toLower)
  if trueWords.contains w then .ok true
  else if falseWords.contains w then .ok false
  else .error (.notTruth w)

/-- The characters without underscores, each of which stands between two digits. -/
def dropUnderscores? (last : Char) : List Char → Option (List Char)
  | [] => some []
  | '_' :: cs => if last.isDigit && cs.head?.any Char.isDigit then dropUnderscores? '_' cs else none
  | c :: cs => (dropUnderscores? c cs).map (c :: ·)

/-- The characters write a number without a sign. -/
def isUnsigned (cs : List Char) : Bool :=
  let (whole, rest) := Cell.takeDigits cs
  let (fraction, rest) := match rest with
    | '.' :: rest => Cell.takeDigits rest
    | rest => ([], rest)
  !(whole ++ fraction).isEmpty && (Cell.exponent? rest).isSome

/-- Reads the value of an option that is a number of seconds; that a number is meant is all that counts. The digits
    may be of any script, and the number need not be finite. -/
def readSeconds (text : String) : Except BadValue Unit :=
  let cs := ((text.toList.dropWhile Text.isSpace).reverse.dropWhile Text.isSpace).reverse
  let plain := cs.map fun c => ((Text.digitOf? c).map Nat.digitChar).getD c.toLower
  let (_, unsigned) := Cell.takeSign plain
  if ["inf", "infinity", "nan"].contains (String.ofList unsigned) then .ok ()
  else if (dropUnderscores? ' ' unsigned).any isUnsigned then .ok ()
  else .error (.notNumber text)

/-- Where a database lies. -/
inductive Location where
  | memory
  | file (path : Files.Path)
  /-- On a server, which does not answer. -/
  | server (host : Option String) (port : Option Int)
  deriving DecidableEq, Repr

/-- The name of a file that an address within the address writes. -/
def innerName (name : String) : String :=
  match name.toList with
  | 'f' :: 'i' :: 'l' :: 'e' :: ':' :: cs =>
    let cs := cs.takeWhile fun c => c != '?' && c != '#'
    let cs := match cs with
      | '/' :: '/' :: cs => cs.dropWhile (· != '/')
      | cs => cs
    Text.percentDecode (String.ofList cs)
  | _ => name

/-- Where the database in a file lies. The options must be readable, and no server may be named. -/
def fileLocation (u : DatabaseUrl) : Except Failure Location := do
  let named (part : Option String) := part.any (· ≠ "")
  if named u.user || named u.password || named u.host || u.port.any (· ≠ 0) then .error (.database .argument)
  let truth (name : String) := ((u.option? name).mapM readTruth).mapError Failure.badValue
  let whole (name : String) := ((u.option? name).mapM readInteger).mapError Failure.badValue
  let isAddress := (← truth "uri").getD false
  let _ ← ((u.option? "timeout").mapM readSeconds).mapError Failure.badValue
  let _ ← whole "detect_types"
  let _ ← truth "check_same_thread"
  let _ ← whole "cached_statements"
  let name := u.name.getD ""
  let name := if isAddress then innerName name else name
  if name = "" || name = ":memory:" || (isAddress && u.option? "mode" = some "memory") then return .memory
  return .file (.ofText name)

/-- Where the database at an address lies, if it can be reached at all. -/
def location (u : DatabaseUrl) : Except Failure Location := do
  match ← u.driver? with
  | .file => u.fileLocation
  | .waiting =>
    let _ ← u.fileLocation
    .error (.database .request)
  | .server => return .server u.host u.port
  | .missing package => .error (.noDriver package)

end DatabaseUrl

end Curation
