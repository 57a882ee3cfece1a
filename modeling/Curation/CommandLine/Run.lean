import Curation.CommandLine.Help
import Curation.Installation
import Curation.Log

/-! The commands: what each one does to the installation, what it writes, and the code that it ends with. -/

namespace Curation.CommandLine

open Schema (Mismatch)

/-- The server that a command starts. -/
structure Server where
  host : String
  port : Int
  workers : Int
  reload : Bool
  logLevel : String
  deriving DecidableEq, Repr

/-- What the server is started with, by name. -/
def Server.toFields (s : Server) : Keyed Json.Value := [
  ("host", .text s.host), ("port", .integer s.port), ("workers", .integer s.workers),
  ("reload", .boolean s.reload), ("log_level", .text s.logLevel), ("access_log", .boolean true)]

/-- Why a command breaks off. -/
inductive Crash where
  /-- The settings are wrong. -/
  | settings (ms : List Mismatch)
  | failure (e : Failure)
  deriving DecidableEq, Repr

/-- How a command ends: its code, what it has written, why it broke off if it did, and the server it started if it
    started one. -/
structure Outcome where
  code : Nat := 0
  output : String := ""
  crash : Option Crash := none
  server : Option Server := none
  deriving DecidableEq, Repr

def Outcome.ofCrash (c : Crash) : Outcome := { code := 1, crash := some c }

def Outcome.refused (usage program : String) (e : UsageError) : Outcome :=
  { code := 2, output := errorText usage program e }

/-! ### The commands and what is said about them -/

def serveCommand : Command where
  name := "serve"
  help := ["Start the CollectionHub server."]
  options := [
    ⟨"--host", .text, "Host to bind to (overrides config)"⟩,
    ⟨"--port", .integer, "Port to bind to (overrides config)"⟩,
    ⟨"--workers", .integer, "Number of worker processes (overrides config)"⟩,
    ⟨"--reload", .flag, "Enable auto-reload for development"⟩]

def initCommand : Command where
  name := "init-db"
  help := ["Create all database tables.",
    "Use this only in development. In production, run the alembic migrations instead."]
  options := [⟨"--force", .flag, "Skip confirmation prompt"⟩]

def addCommand : Command where
  name := "add-project"
  help := ["Register a project so collections can reference it."]
  options := [⟨"--title", .text, "Project title"⟩]
  arguments := ["PROJECT_ID"]

def checkCommand : Command where
  name := "check-storage"
  help := ["Verify the configured asset store is reachable."]

/-- All commands, in the order of their names. -/
def commands : List Command := [addCommand, checkCommand, initCommand, serveCommand]

def groupHelp : List String := [
  "CollectionHub - curated collections of projects.",
  "Settings are loaded from COLLECTIONHUB_* environment variables and the .env file."]

def versionOption : Opt := ⟨"--version", .flag, "Show the version and exit."⟩

def groupOptions : List Opt := [versionOption, helpOption]

def groupUsage (program : String) : String := usageLine program ["[OPTIONS]", "COMMAND", "[ARGS]..."]

def groupHelpText (program : String) : String :=
  groupUsage program ++ paragraphs groupHelp ++ optionTable groupOptions ++
    table "Commands" (commands.map fun c => (c.name, c.help.headD ""))

def version : String := "0.1.0"

def versionText : String := s!"CollectionHub, version {version}\n"

/-! ### What the commands do -/

/-- The value of an option, or what the settings say if it is not given or says nothing. -/
def orSetting (given : Option α) (counts : α → Bool) (setting : α) : α :=
  match given with
  | some a => if counts a then a else setting
  | none => setting

/-- The server that options and settings describe. One that reloads has a single worker. -/
def serverOf (s : Settings) (host : Option String) (port workers : Option Int) (reload : Bool) : Server where
  host := orSetting host (fun h => !h.isEmpty) s.host
  port := orSetting port (· ≠ 0) s.port
  workers := if reload then 1 else orSetting workers (· ≠ 0) s.workers
  reload := reload
  logLevel := Log.levelName s.logLevel

/-- Starts the server. -/
def serve (s : Settings) (w : Words) : Outcome :=
  match w.integer? "--port", w.integer? "--workers" with
  | .ok port, .ok workers =>
    { server := some (serverOf s (w.value? "--host") port workers (w.has "--reload")) }
  | _, _ => {}

/-- Asks whether to go on, until a line of the input answers. Returns what is written, and whether to go on. Where the
    input ends, the question that is left open is written last. -/
def confirm (question : String) : List String → String × Bool
  | [] => ("Aborted!\n" ++ question, false)
  | line :: input =>
    let asked := question ++ line ++ "\n"
    let answer := String.ofList ((Text.strip line).toList.map Char.toLower)
    if answer = "y" || answer = "yes" then (asked, true)
    else if answer = "n" || answer = "no" || answer = "" then (asked ++ "Aborted!\n", false)
    else
      let (written, goOn) := confirm question input
      (asked ++ "Error: invalid input\n" ++ written, goOn)

def question : String := "This will create all database tables. Continue? [y/N]: "

/-- Creates the tables after what has been written. -/
def createTables (written : String) (i : Installation) : Outcome × Installation :=
  match Installation.createTables i with
  | (.ok _, i) => ({ output := written ++ "Database initialized successfully.\n" }, i)
  | (.error e, i) => ({ code := 1, output := written, crash := some (.failure e) }, i)

/-- Creates the tables, if that is confirmed. -/
def initDatabase (s : Settings) (w : Words) (input : List String) (i : Installation) : Outcome × Installation :=
  let force := w.has "--force"
  if s.environment == .production && !force then
    ({ code := 1, output := "ERROR: Running in production mode. Use migrations instead of init-db.\n" }, i)
  else if force then createTables "" i
  else
    let (written, goOn) := confirm question input
    if goOn then createTables written i else ({ code := 1, output := written }, i)

/-- Adds a project, whose title is its id unless one is given. -/
def addProject (now : Time.Instant) (w : Words) (i : Installation) : Outcome × Installation :=
  let id := w.rest.headD ""
  let title := orSetting (w.value? "--title") (fun t => !t.isEmpty) id
  let add : Job Unit := do
    let _ ← Installation.location
    fun i =>
      let (r, i) := (Installation.runSession now (Act.atomically (Catalog.addProject id title)) : Job Unit) i
      (r.mapError Failure.aborted, i)
  match add i with
  | (.ok _, i) => ({ output := Text.unmarked s!"Project {id} added.\n" }, i)
  | (.error e, i) => (.ofCrash (.failure e), i)

/-- Tests the store of blobs. -/
def checkStorage (s : Settings) (i : Installation) : Outcome × Installation :=
  let (result, i) : (Bool × String) × Installation := match s.assetStore i.home with
    | .files store =>
      let (result, files) := store.test i.files
      (result, { i with files })
    | .bucket store =>
      match (store.test (some .noCredentials)).1 with
      | .ok result => (result, i)
      | .error e => ((false, e.message), i)
  let (ok, text) := result
  if ok then ({ output := s!"Storage backend '{s.backend.word}' is reachable.\n" }, i)
  else ({ code := 1, output := Text.unmarked s!"Storage check failed: {text}\n" }, i)

/-- Where a command line is run: the name of the program, what settings are loaded from, the lines of its input, and
    the time. -/
structure Shell where
  program : String := "collectionhub"
  sources : Settings.Sources := {}
  input : List String := []
  now : Time.Instant := 0

/-- A command line may ask something before it goes on. -/
def asksForInput (words : List String) : Bool :=
  words.head? == some initCommand.name && !words.contains "--force" && !words.contains "--help"

/-- Runs a command on the words after its name. -/
def runCommand (sh : Shell) (c : Command) (words : List String) (i : Installation) : Outcome × Installation :=
  let program := sh.program ++ " " ++ c.name
  let refuse (e : UsageError) : Outcome × Installation := (.refused (c.usage sh.program) program e, i)
  match readWords c.allOptions true words with
  | .error e => refuse e
  | .ok w =>
    if w.has "--help" then ({ output := c.helpText sh.program }, i)
    else match w.check c with
      | .error e => refuse e
      | .ok _ =>
        match Settings.load sh.sources with
        | .error ms => (.ofCrash (.settings ms), i)
        | .ok s =>
          let i := { i with settings := s }
          match c.name with
          | "serve" => (serve s w, i)
          | "init-db" => initDatabase s w sh.input i
          | "add-project" => addProject sh.now w i
          | _ => checkStorage s i

/-- Runs a command line. -/
def run (sh : Shell) (words : List String) (i : Installation) : Outcome × Installation :=
  let refuse (e : UsageError) : Outcome × Installation :=
    (.refused (groupUsage sh.program) sh.program e, i)
  let answered (option : String) : Outcome :=
    { output := if option = versionOption.name then versionText else groupHelpText sh.program }
  if words.isEmpty then ({ code := 2, output := groupHelpText sh.program }, i)
  else match readWords groupOptions false words with
    | .error e => refuse e
    | .ok w =>
      match w.options, w.rest with
      | (name, _) :: _, _ => (answered name, i)
      | [], [] => refuse .missingCommand
      | [], name :: words =>
        match commands.find? (·.name == name) with
        | some c => runCommand sh c words i
        | none =>
          -- What is no command may still be an option.
          match readWords groupOptions false (name :: words) with
          | .error e => refuse e
          | .ok { options := (option, _) :: _, .. } => (answered option, i)
          | .ok _ => refuse (.noCommand name (Text.similarTo name (commands.map (·.name))))

end Curation.CommandLine
