import Curation.Failure
import Curation.Files.Tree

/-! A store that keeps blobs as files below one directory, and nothing outside of it. -/

namespace Curation

open Files (Path Tree FileAct FileError isWithin)

/-- The directory of the blobs, and the place that it is relative to. -/
structure LocalStore where
  directory : Path
  home : List String := []
  deriving DecidableEq, Repr

/-- What a store says of a blob that it has taken. -/
structure StoredBlob where
  path : String
  contentType : String
  size : Nat
  deriving DecidableEq, Repr

namespace LocalStore

/-- The place of the blobs. -/
def place (s : LocalStore) : List String := s.directory.resolve s.home

/-- The place that the path of a blob leads to, which must lie in the directory. -/
def target (s : LocalStore) (path : String) : Except Failure (List String) :=
  let p := Path.ofText path
  if (s.directory.names ++ p.names).any fun n => n.toList.contains '\x00' then .error (.badValue .nullCharacter)
  else
    let place := (s.directory.join p).resolve s.home
    if isWithin place s.place then .ok place else .error (.storage s!"Invalid asset path: {path}")

/-- Writes a file, with the directories above it. -/
def writeBlob (place : List String) (data : ByteArray) : FileAct Unit := do
  FileAct.makeDirectories [] (Path.ofPlace place.dropLast)
  FileAct.change (Path.ofPlace place) fun t => t.write [] (Path.ofPlace place) data

/-- Stores a blob. -/
def upload (s : LocalStore) (contentType path : String) (data : ByteArray) (t : Tree) :
    Except Failure StoredBlob × Tree :=
  match s.target path with
  | .error e => (.error e, t)
  | .ok place =>
    match writeBlob place data t with
    | (.ok _, t) => (.ok ⟨path, contentType, data.size⟩, t)
    | (.error e, t) => (.error (.storage s!"Failed to write asset {path}: {e.message}"), t)

/-- Deletes a blob. -/
def delete (s : LocalStore) (path : String) (t : Tree) : Except Failure Unit × Tree :=
  match s.target path with
  | .error e => (.error e, t)
  | .ok place =>
    let p := Path.ofPlace place
    match t.remove [] p with
    | .ok t => (.ok (), t)
    | .error .missing => (.error (.storage s!"Asset not found: {path}"), t)
    | .error fault =>
      (.error (.storage s!"Failed to delete asset {path}: {(FileError.mk fault p).message}"), t)

/-- Makes the directory, and writes and removes a file in it. -/
def probe (s : LocalStore) : FileAct Unit := do
  FileAct.makeDirectories s.home s.directory
  let p := s.directory.join (Path.ofText ".asset_store_probe")
  FileAct.change p fun t => t.write s.home p "ok".toUTF8
  FileAct.change p fun t => t.remove s.home p

/-- Whether the store works, and what there is to say about it. -/
def test (s : LocalStore) (t : Tree) : (Bool × String) × Tree :=
  if s.directory.names.any fun n => n.toList.contains '\x00' then
    ((false, "Local storage test failed: " ++ (Failure.badValue .nullCharacter).message), t)
  else
    match s.probe t with
    | (.ok _, t) => ((true, s!"Local storage is writable at '{s.directory.text}'."), t)
    | (.error e, t) => ((false, s!"Local storage test failed: {e.message}"), t)

end LocalStore

end Curation
