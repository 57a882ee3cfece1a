import Curation.CommandLine.Grammar
import Curation.Text.Style
import Curation.Text.Wrap

/-! What a command line says about itself. -/

namespace Curation.CommandLine

/-- The width of lines. -/
def lineWidth : Nat := 78

/-- The line that shows how a command is used, after its name. -/
def usageLine (program : String) (pieces : List String) : String :=
  "Usage: " ++ " ".intercalate (program :: pieces) ++ "\n"

/-- Paragraphs that are set in. -/
def paragraphs (ps : List String) : String :=
  String.join (ps.map fun p =>
    "\n" ++ String.join ((Text.wrap (lineWidth - 2) p).map fun line => "  " ++ line ++ "\n"))

/-- Rows of a name and what is said about it, under a title. -/
def table (title : String) (rows : List (String × String)) : String :=
  let width := rows.foldl (fun n (name, _) => max n name.length) 0
  "\n" ++ title ++ ":\n" ++ String.join (rows.map fun (name, help) =>
    "  " ++ name ++ String.ofList (List.replicate (width - name.length + 2) ' ') ++ help ++ "\n")

/-- An option and what it takes. -/
def Opt.shown (o : Opt) : String :=
  o.name ++
    match o.kind with
    | .flag => ""
    | .text => " TEXT"
    | .integer => " INTEGER"

def optionTable (options : List Opt) : String := table "Options" (options.map fun o => (o.shown, o.help))

def Command.usage (c : Command) (program : String) : String :=
  usageLine (program ++ " " ++ c.name) ("[OPTIONS]" :: c.arguments)

def Command.helpText (c : Command) (program : String) : String :=
  c.usage program ++ paragraphs c.help ++ optionTable c.allOptions

/-- What is said about a wrong command line: how it is used and where there is help, unless the failure is about its
    form alone, and what is wrong. -/
def errorText (usage program : String) (e : UsageError) : String :=
  (if e.isBare then "" else usage ++ "Try '" ++ program ++ " --help' for help.\n\n") ++ "Error: " ++
    Text.unmarked e.message ++ "\n"

end Curation.CommandLine
