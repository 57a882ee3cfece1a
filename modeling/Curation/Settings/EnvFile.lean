import Curation.Keyed
import Curation.Text.Blank

/-! Files of variables: one assignment a line, values bare or quoted, comments after a hash. A line that cannot
    be read is left out. A value may refer to other variables. -/

namespace Curation.EnvFile

open Text (isBlank)

/-- The text with every end of a line written as a line feed. -/
def joinLineEnds : List Char → List Char
  | '\r' :: '\n' :: cs => '\n' :: joinLineEnds cs
  | '\r' :: cs => '\n' :: joinLineEnds cs
  | c :: cs => c :: joinLineEnds cs
  | [] => []

/-- A blank character that does not end a line. -/
def isGap (c : Char) : Bool := isBlank c && c != '\n'

def skipLine (cs : List Char) : List Char := (cs.dropWhile (· != '\n')).drop 1

/-- Reads what a reader finds next; where it finds nothing, what is left is the error. -/
def expect (read : List Char → Option (α × List Char)) (cs : List Char) :
    Except (List Char) (α × List Char) :=
  match read cs with
  | some found => .ok found
  | none => .error cs

/-- What is left after a comment, if one is next. -/
def skipComment (cs : List Char) : List Char :=
  match cs.dropWhile isGap with
  | '#' :: rest => rest.dropWhile (· != '\n')
  | _ => cs

/-- Reads the end of a line. -/
def endLine? (cs : List Char) : Option (Unit × List Char) :=
  match cs.dropWhile isGap with
  | '\n' :: rest => some ((), rest)
  | [] => some ((), [])
  | _ => none

/-- The characters before the first quote that no backslash precedes, and those after it. -/
def untilQuote? (quote : Char) : List Char → Option (List Char × List Char)
  | [] => none
  | '\\' :: c :: cs =>
    if c == quote then
      match untilQuote? quote cs with
      | some (inside, rest) => some ('\\' :: c :: inside, rest)
      | none => some (['\\'], cs)
    else (untilQuote? quote (c :: cs)).map fun (inside, rest) => ('\\' :: inside, rest)
  | c :: cs =>
    if c == quote then some ([], cs)
    else (untilQuote? quote cs).map fun (inside, rest) => (c :: inside, rest)

/-- The characters that may follow a backslash between double quotes, and what they stand for. -/
def escapes : List (Char × Char) := [
  ('\\', '\\'), ('\'', '\''), ('"', '"'), ('a', '\x07'), ('b', '\x08'), ('f', '\x0c'), ('n', '\n'),
  ('r', '\r'), ('t', '\t'), ('v', '\x0b')]

/-- Replaces the escapes that are allowed; any other backslash stands for itself. -/
def unescape (allowed : List (Char × Char)) : List Char → List Char
  | '\\' :: c :: cs =>
    match allowed.lookup c with
    | some d => d :: unescape allowed cs
    | none => '\\' :: unescape allowed (c :: cs)
  | c :: cs => c :: unescape allowed cs
  | [] => []
  termination_by cs => cs.length

/-- A bare value ends before the first hash that follows a blank. -/
def dropComment : List Char → List Char
  | c :: cs =>
    if isBlank c && (cs.dropWhile isBlank).head? == some '#' then [] else c :: dropComment cs
  | [] => []

def trimRight (cs : List Char) : List Char := (cs.reverse.dropWhile isBlank).reverse

/-- Reads a value up to the end of it. A hash that a gap sets apart from the sign before it starts a comment,
    and the value is empty. -/
def readValue? (afterSign : List Char) : Option (List Char × List Char) :=
  match afterSign.dropWhile isGap with
  | '\'' :: rest => (untilQuote? '\'' rest).map fun (v, rest) => (unescape (escapes.take 2) v, rest)
  | '"' :: rest => (untilQuote? '"' rest).map fun (v, rest) => (unescape escapes v, rest)
  | cs =>
    let line := cs.takeWhile (· != '\n')
    let apart := line.head? == some '#' && afterSign.head? != some '#'
    some (if apart then [] else trimRight (dropComment line), cs.drop line.length)

/-- Reads the name of a variable; nothing at the start of a comment. -/
def readName? (cs : List Char) : Option (Option (List Char) × List Char) :=
  match cs with
  | '#' :: _ => some (none, cs)
  | '\'' :: rest =>
    let name := rest.takeWhile (· != '\'')
    match name, rest.drop name.length with
    | [], _ => none
    | _, [] => none
    | name, _ :: rest => some (some name, rest)
  | cs =>
    let name := cs.takeWhile fun c => c != '=' && c != '#' && !isBlank c
    if name.isEmpty then none else some (some name, cs.drop name.length)

/-- What is left after the word that may stand before a name. -/
def skipExport (cs : List Char) : List Char :=
  let word := "export".toList
  let rest := cs.drop word.length
  if word.isPrefixOf cs && (rest.head?.map isGap).getD false then rest.dropWhile isGap else cs

/-- Reads the value of a variable, if the sign for one is next. -/
def readSetting (cs : List Char) : Except (List Char) (Option (List Char) × List Char) :=
  match cs.dropWhile isGap with
  | '=' :: rest =>
    match readValue? rest with
    | some (v, rest) => .ok (some v, rest)
    | none => .error (rest.dropWhile isGap)
  | rest => .ok (none, rest)

/-- Reads one line after its blanks: a variable with its value, if it has one. -/
def readLine (cs : List Char) :
    Except (List Char) (Option (String × Option String) × List Char) := do
  let (name, rest) ← expect readName? (skipExport cs)
  let (value, rest) ← readSetting rest
  let (_, rest) ← expect endLine? (skipComment rest)
  return (name.map fun n => (String.ofList n, value.map String.ofList), rest)

/-- Reads the lines of a file. A line that cannot be read ends where the line ends on which reading stopped.
    Every line spends one of `fuel`. -/
def readLines : Nat → List Char → List (String × Option String)
  | 0, _ => []
  | fuel + 1, cs =>
    match cs.dropWhile isBlank with
    | [] => []
    | c :: cs =>
      match readLine (c :: cs) with
      | .ok (some entry, rest) => entry :: readLines fuel rest
      | .ok (none, rest) => readLines fuel rest
      | .error rest => readLines fuel (skipLine rest)

/-- A piece of a value: characters, or a reference to a variable with what it is if that is not set. -/
inductive Piece where
  | plain (c : Char)
  | reference (name : String) (default : Option String)

/-- Reads a reference after its dollar sign. -/
def readReference? (cs : List Char) : Option (Piece × List Char) :=
  match cs with
  | '{' :: cs =>
    let name := cs.takeWhile fun c => c != '}' && c != ':'
    match cs.drop name.length with
    | '}' :: rest => some (.reference (String.ofList name) none, rest)
    | ':' :: '-' :: rest =>
      let default := rest.takeWhile (· != '}')
      match rest.drop default.length with
      | _ :: rest => some (.reference (String.ofList name) (some (String.ofList default)), rest)
      | [] => none
    | _ => none
  | _ => none

/-- The pieces of a value. Every piece spends one of `fuel`. -/
def pieces : Nat → List Char → List Piece
  | 0, _ => []
  | _, [] => []
  | fuel + 1, c :: cs =>
    match if c == '$' then readReference? cs else none with
    | some (piece, rest) => piece :: pieces fuel rest
    | none => .plain c :: pieces fuel cs

/-- The last value that is given to a name. -/
def lastValue? (entries : List (String × α)) (name : String) : Option α := entries.reverse.lookup name

/-- The value with its references replaced. -/
def expand (known : List (String × Option String)) (value : String) : String :=
  String.join ((pieces value.length value.toList).map fun
    | .plain c => c.toString
    | .reference name default =>
      match lastValue? known name with
      | some v => v.getD ""
      | none => default.getD "")

/-- The characters of a file without the mark that may stand before them. -/
def content (file : String) : List Char :=
  match file.toList with
  | '\ufeff' :: cs => cs
  | cs => cs

/-- The variables of a file, in the order in which they first occur. A value may refer to the variables of the
    environment and to those before it. -/
def entries (environment : List (String × String)) (file : String) : Keyed (Option String) :=
  (readLines (file.length + 1) (joinLineEnds (content file))).foldl (fun out (name, value) =>
    out.put name (value.map (expand (environment.map (fun (k, v) => (k, some v)) ++ out)))) []

end Curation.EnvFile
