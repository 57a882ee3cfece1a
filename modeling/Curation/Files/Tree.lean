import Curation.Files.Fault

/-! A tree of files without links. A place in it is the list of the names that lead to it from the top. -/

namespace Curation.Files

inductive Entry where
  | directory
  | file (data : ByteArray)

/-- The entries below the top, which is a directory. -/
structure Tree where
  entries : List (List String × Entry) := []

/-- An operation on files: it ends with a value or an error, and in either case changes the tree. -/
abbrev FileAct (α : Type) := ExceptT FileError (StateM Tree) α

/-- The most bytes a name may have. -/
def maxName : Nat := 255

/-- The most bytes a path may have. -/
def maxPath : Nat := 4095

namespace Tree

/-- The entry at a place. -/
def find? (t : Tree) (place : List String) : Option Entry :=
  if place = [] then some .directory else t.entries.lookup place

def isDirectoryAt (t : Tree) (place : List String) : Bool :=
  match t.find? place with
  | some .directory => true
  | _ => false

/-- Takes the entry at a place out. -/
def erase (t : Tree) (place : List String) : Tree :=
  ⟨t.entries.filter fun e => e.1 ≠ place⟩

/-- Sets the entry at a place. -/
def insert (t : Tree) (place : List String) (e : Entry) : Tree := ⟨(t.erase place).entries ++ [(place, e)]⟩

/-- The place that names lead to from another, where every directory on the way must be there. -/
def walk (t : Tree) : List String → List String → Except Fault (List String)
  | place, [] => .ok place
  | place, name :: names =>
    if !t.isDirectoryAt place then .error .notDirectory
    else if maxName < name.utf8ByteSize then .error .nameTooLong
    else
      let next := Path.step place name
      if (t.find? next).isSome then t.walk next names else .error .missing

/-- The place that a path leads to from a home; the last name of it need not be there. -/
def locate (t : Tree) (home : List String) (p : Path) : Except Fault (List String) := do
  if maxPath < p.text.utf8ByteSize then .error .nameTooLong
  let start := if p.isAbsolute then [] else home
  match p.names.getLast? with
  | none => return start
  | some name =>
    let place ← t.walk start p.names.dropLast
    if !t.isDirectoryAt place then .error .notDirectory
    else if maxName < name.utf8ByteSize then .error .nameTooLong
    else return Path.step place name

/-- The path leads to a directory. -/
def isDirectory (t : Tree) (home : List String) (p : Path) : Bool :=
  match t.locate home p with
  | .ok place => t.isDirectoryAt place
  | .error _ => false

/-- Makes a directory. -/
def makeDirectory (t : Tree) (home : List String) (p : Path) : Except Fault Tree := do
  let place ← t.locate home p
  if (t.find? place).isSome then .error .exists else return t.insert place .directory

/-- Writes a file in the place of the one that is there, if any. -/
def write (t : Tree) (home : List String) (p : Path) (data : ByteArray) : Except Fault Tree := do
  let place ← t.locate home p
  if t.isDirectoryAt place then .error .isDirectory else return t.insert place (.file data)

/-- Removes a file. -/
def remove (t : Tree) (home : List String) (p : Path) : Except Fault Tree := do
  let place ← t.locate home p
  match t.find? place with
  | none => .error .missing
  | some .directory => .error .isDirectory
  | some (.file _) => return t.erase place

end Tree

/-- The names of the entries below a place, in order: directories with a slash at the end, files with their sizes
    where these are shown. -/
def Tree.listing (t : Tree) (place : List String) (showsSize : String → Bool) : List String :=
  let below := t.entries.filter fun e => place.length < e.1.length && isWithin e.1 place
  let names := below.map fun (p, e) =>
    let name := "/".intercalate (p.drop place.length)
    match e with
    | .directory => name ++ "/"
    | .file data => if showsSize name then s!"{name}:{data.size}" else name
  names.mergeSort fun a b => decide (a ≤ b)

namespace FileAct

/-- Changes the tree, unless that fails. -/
def change (p : Path) (f : Tree → Except Fault Tree) : FileAct Unit := fun t =>
  match f t with
  | .ok t => (.ok (), t)
  | .error fault => (.error ⟨fault, p⟩, t)

/-- Makes a directory that may be there already. -/
def makeDirectory (home : List String) (p : Path) : FileAct Unit := fun t =>
  match t.makeDirectory home p with
  | .ok t => (.ok (), t)
  | .error fault => (if t.isDirectory home p then .ok () else .error ⟨fault, p⟩, t)

/-- Makes the directory with the given names, the last one first, and those above it. -/
def makeDirectoriesUp (home : List String) (root : String) : List String → FileAct Unit
  | [] => makeDirectory home ⟨root, []⟩
  | name :: up => fun t =>
    let p : Path := ⟨root, (name :: up).reverse⟩
    match t.makeDirectory home p with
    | .error .missing => (do makeDirectoriesUp home root up; makeDirectory home p : FileAct Unit) t
    | _ => makeDirectory home p t

/-- Makes a directory and those above it; all of them may be there already. -/
def makeDirectories (home : List String) (p : Path) : FileAct Unit :=
  makeDirectoriesUp home p.root p.names.reverse

end FileAct

end Curation.Files
