import Curation.Text.Split

/-! Paths of files. A path is kept as it was given, save that empty names and the name for "here" are left out;
    the name for "up" is kept until the path is resolved. -/

namespace Curation.Files

/-- A path: the slashes it starts with, if it is absolute, and its names. -/
structure Path where
  root : String := ""
  names : List String := []
  deriving DecidableEq, Repr

namespace Path

/-- A path starts at the top of the tree. -/
def isAbsolute (p : Path) : Bool := !p.root.isEmpty

/-- The names in a text between slashes. -/
def namesOf (s : String) : List String := (Text.splitAt '/' s).filter fun n => n ≠ "" && n ≠ "."

/-- The slashes that a text starts with count as one, unless there are exactly two. -/
def rootOf (s : String) : String :=
  match (s.toList.takeWhile (· == '/')).length with
  | 0 => ""
  | 2 => "//"
  | _ => "/"

def ofText (s : String) : Path := ⟨rootOf s, namesOf s⟩

def text (p : Path) : String :=
  if p.root.isEmpty && p.names.isEmpty then "." else p.root ++ "/".intercalate p.names

/-- The path that is meant by a second path at a first one; an absolute one is meant by itself. -/
def join (p q : Path) : Path := if q.isAbsolute then q else { p with names := p.names ++ q.names }

/-- One step in a tree whose directories are all there: up, or down to a name. -/
def step (place : List String) (name : String) : List String :=
  if name = ".." then place.dropLast else place ++ [name]

/-- The place that names lead to. -/
def follow (place names : List String) : List String := names.foldl step place

/-- The place that a path leads to from a home. -/
def resolve (home : List String) (p : Path) : List String :=
  if p.isAbsolute then follow [] p.names else follow home p.names

/-- The path of a place. -/
def ofPlace (place : List String) : Path := ⟨"/", place⟩

end Path

/-- A place lies in a directory, or is the directory. -/
def isWithin (place directory : List String) : Bool := directory.isPrefixOf place

end Curation.Files
