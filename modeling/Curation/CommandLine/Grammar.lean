import Curation.Text.Blank
import Curation.Text.Integer
import Curation.Text.Quoted
import Curation.Text.Similarity
import Curation.Text.Split

/-! The words of a command line: options with and without values, and what stands between them. -/

namespace Curation.CommandLine

/-- What an option takes. -/
inductive Kind where
  | flag
  | text
  | integer
  deriving DecidableEq, Repr

/-- An option and what is said about it. -/
structure Opt where
  name : String
  kind : Kind
  help : String
  deriving DecidableEq, Repr

/-- A command: what is said about it, its options, and the names of its arguments. -/
structure Command where
  name : String
  help : List String
  options : List Opt := []
  arguments : List String := []
  deriving DecidableEq, Repr

/-- The option that every command has. -/
def helpOption : Opt := ⟨"--help", .flag, "Show this message and exit."⟩

def Command.allOptions (c : Command) : List Opt := c.options ++ [helpOption]

/-- What is wrong with a command line. -/
inductive UsageError where
  /-- There is no such command, but perhaps some with similar names. -/
  | noCommand (name : String) (similar : List String)
  | missingCommand
  /-- There is no such option, but perhaps some with similar names. -/
  | noOption (name : String) (similar : List String)
  | needsValue (name : String)
  | takesNoValue (name : String)
  | badInteger (name value : String)
  | missingArgument (name : String)
  | extra (words : List String)
  deriving DecidableEq, Repr

/-- What is said about names that may be meant. -/
def suggestion : List String → String
  | [] => ""
  | [one] => " Did you mean " ++ Text.quoted one ++ "?"
  | several => " (Did you mean one of: " ++ ", ".intercalate (several.map Text.quoted) ++ "?)"

def UsageError.message : UsageError → String
  | .noCommand name similar => "No such command " ++ Text.quoted name ++ "." ++ suggestion similar
  | .missingCommand => "Missing command."
  | .noOption name similar => "No such option " ++ Text.quoted name ++ "." ++ suggestion similar
  | .needsValue name => "Option " ++ Text.quoted name ++ " requires an argument."
  | .takesNoValue name => "Option " ++ Text.quoted name ++ " does not take a value."
  | .badInteger name value =>
    "Invalid value for '" ++ name ++ "': " ++ Text.quoted value ++ " is not a valid integer."
  | .missingArgument name => "Missing argument '" ++ name ++ "'."
  | .extra words =>
    "Got unexpected extra argument" ++ (if words.length = 1 then "" else "s") ++ " (" ++
      " ".intercalate words ++ ")"

/-- The failure is about the form of the command line alone, whatever the command. -/
def UsageError.isBare : UsageError → Bool
  | .needsValue _ | .takesNoValue _ => true
  | _ => false

/-- What a command line says: the options in the order in which they stand, with their values, and the other
    words. -/
structure Words where
  options : List (String × String) := []
  rest : List String := []
  deriving DecidableEq, Repr

namespace Words

/-- The value of an option; of several the last one counts. -/
def value? (w : Words) (name : String) : Option String := w.options.reverse.lookup name

def has (w : Words) (name : String) : Bool := (w.value? name).isSome

def addOption (w : Words) (name value : String) : Words := { w with options := (name, value) :: w.options }

def addRest (w : Words) (words : List String) : Words := { w with rest := words ++ w.rest }

end Words

/-- A word is an option: it starts with a dash and is longer than that. -/
def isOption (word : String) : Bool := word.startsWith "-" && 1 < word.length

/-- The failure for an option that does not exist. A word with a single dash is taken for several options of one
    letter, of which the first one does not exist. -/
def unknownOption (options : List Opt) (word name : String) : UsageError :=
  if word.startsWith "--" then .noOption name (Text.similarTo name (options.map (·.name)))
  else .noOption (String.ofList (word.toList.take 2)) []

/-- Reads words. `mixed` tells whether options may stand after other words. -/
def readWords (options : List Opt) (mixed : Bool) : List String → Except UsageError Words
  | [] => .ok {}
  | word :: rest =>
    if word = "--" then .ok { rest }
    else if isOption word then
      let (name, attached) := Text.cut '=' word
      match options.find? (·.name == name) with
      | none => .error (unknownOption options word name)
      | some o =>
        match o.kind, attached, rest with
        | .flag, some _, _ => .error (.takesNoValue name)
        | .flag, none, rest => (readWords options mixed rest).map (·.addOption name "")
        | _, some v, rest => (readWords options mixed rest).map (·.addOption name v)
        | _, none, v :: rest => (readWords options mixed rest).map (·.addOption name v)
        | _, none, [] => .error (.needsValue name)
    else if mixed then (readWords options mixed rest).map (·.addRest [word])
    else .ok { rest := word :: rest }

/-- The value of an option that is an integer, if the option is there. -/
def Words.integer? (w : Words) (name : String) : Except UsageError (Option Int) :=
  match w.value? name with
  | none => .ok none
  | some v =>
    match Text.integerOf v with
    | .ok n => .ok (some n)
    | .error _ => .error (.badInteger name v)

/-- The first option, in the order in which they stand, whose value is not an integer although it should be. -/
def Words.badInteger? (w : Words) (options : List Opt) : Option UsageError :=
  w.options.findSome? fun (name, _) =>
    if options.any fun o => o.name == name && o.kind == .integer then
      match w.integer? name with
      | .error e => some e
      | .ok _ => none
    else none

/-- Words that a command can take: its integers are integers, and it gets each of its arguments and no more. -/
def Words.check (w : Words) (c : Command) : Except UsageError Unit :=
  match w.badInteger? c.options, c.arguments.drop w.rest.length, w.rest.drop c.arguments.length with
  | some e, _, _ => .error e
  | none, name :: _, _ => .error (.missingArgument name)
  | none, [], [] => .ok ()
  | none, [], extra => .error (.extra extra)

end Curation.CommandLine
