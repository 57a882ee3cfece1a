import Curation.Failure
import Curation.IdSource
import Curation.Settings
import Curation.Time.Timestamp

/-! The log: which entries are written, what is added to them, and the correlation id that the entries of one
    request share. -/

namespace Curation.Log

open Json (Value)

/-- The correlation id with a number. -/
def correlationId (n : Nat) : String := "cid_" ++ String.ofList (Text.digits 16 12 (n % Nat.pow 16 12))

/-- What entries share: the correlation id that is bound, if one is, and how many ids have been generated. -/
structure Context where
  bound : Option String := none
  generated : Nat := 0
  deriving DecidableEq, Repr

namespace Context

/-- Generates a correlation id. -/
def next (c : Context) : String × Context :=
  (correlationId (c.generated + 1), { c with generated := c.generated + 1 })

def bind (c : Context) (id : String) : Context := { c with bound := some id }

def clear (c : Context) : Context := { c with bound := none }

end Context

/-- A method that writes entries: their level, and whether it passes them on to the method for errors. -/
structure Method where
  level : Level
  forwards : Bool := false
  deriving DecidableEq, Repr

/-- The methods that write entries, by their names. -/
def methods : List (String × Method) := [
  ("debug", ⟨.debug, false⟩), ("info", ⟨.info, false⟩), ("msg", ⟨.info, false⟩), ("warn", ⟨.warning, false⟩),
  ("warning", ⟨.warning, false⟩), ("error", ⟨.error, false⟩), ("exception", ⟨.error, true⟩),
  ("critical", ⟨.critical, false⟩), ("fatal", ⟨.critical, false⟩)]

/-- The name of a level in an entry. -/
def levelName (l : Level) : String := String.ofList (l.word.toList.map Char.toLower)

/-- Adds a correlation id to an entry that has none. -/
def addCorrelationId (c : Context) (entry : Keyed Value) : Keyed Value × Context :=
  match entry.get? "correlation_id" with
  | some _ => (entry, c)
  | none =>
    let (id, c) := c.next
    (entry.put "correlation_id" (.text id), c)

/-- The name of the log that has no name of its own. -/
def defaultName : String := "collectionhub"

/-- Sets the name of the log that an entry belongs to. -/
def addName (name : Option String) (entry : Keyed Value) : Keyed Value :=
  entry.put "logger" (.text (match name with
    | some n => if n.isEmpty then defaultName else n
    | none => defaultName))

/-- Moves what an entry is about to the field that shippers of logs look at. -/
def renameEvent (entry : Keyed Value) : Keyed Value :=
  match entry.get? "event" with
  | some v => (entry.drop "event").put "message" v
  | none => entry

/-- Entries are written for people to read. -/
def forPeople (s : Settings) : Bool := s.environment == .development || s.logFormat == .console

/-- An entry of a level is written. -/
def isWritten (s : Settings) (l : Level) : Bool := s.logLevel.rank ≤ l.rank

/-- The fields of an entry that is written for machines: those of the context, those given, and those that
    every entry has. -/
def entry (c : Context) (now : Time.Instant) (l : Level) (event : Value) (given : Keyed Value) :
    Keyed Value × Context :=
  let shared : Keyed Value := (c.bound.map fun id => [("correlation_id", Value.text id)]).getD []
  let given := match event with
    | .null => given
    | event => given.put "event" event
  let fields := given.foldl (fun (m : Keyed Value) (k, v) => m.put k v) shared
  let fields := addName none (fields.put "level" (.text (levelName l)))
  let time := (Time.Timestamp.ofInstant now).wall
  let fields := fields.put "timestamp"
    (.text (Time.dateText time ++ "T" ++ Time.clockText time ++ Time.fractionText time ++ "Z"))
  let (fields, c) := addCorrelationId c ((fields.drop "stack_info").drop "exc_info")
  (renameEvent fields, c)

/-- The routine that takes the calls of a method. -/
def routine (s : Settings) (m : Method) : String :=
  if m.forwards then "exception"
  else if isWritten s m.level then "_make_filtering_bound_logger.<locals>.make_method.<locals>.meth"
  else "_nop"

/-- Why a method cannot be called with some fields: they name what the call gives by its place. -/
def callFault? (s : Settings) (m : Method) (given : Keyed Value) : Option BadType :=
  match given.keys.find? fun k => ["self", "event"].contains k with
  | some k => some (.repeatedParameter (routine s m) k)
  | none =>
    if isWritten s m.level && given.keys.contains "method_name" then
      some (.repeatedParameter "BoundLoggerBase._proxy_to_logger" "method_name")
    else none

/-- Something that happens to a log. -/
inductive Step where
  | write (m : Method) (event : Value) (given : Keyed Value)
  | bind (id : String)
  | clear

/-- The entries that steps write, unless one of them is a call that cannot be made. -/
def entries (s : Settings) (now : Time.Instant) : Context → List Step → Except Failure (List (Keyed Value))
  | _, [] => .ok []
  | c, .bind id :: steps => entries s now (c.bind id) steps
  | c, .clear :: steps => entries s now c.clear steps
  | c, .write m event given :: steps =>
    match callFault? s m given with
    | some fault => .error (.badType fault)
    | none =>
      if isWritten s m.level then do
        let (fields, c) := entry c now m.level event given
        return fields :: (← entries s now c steps)
      else entries s now c steps

end Curation.Log
