import Curation.Keyed
import Curation.LocalStore

/-! A store of blobs that keeps them by path, with a record of the calls made to it. -/

namespace Curation

/-- A call to the store. -/
inductive BlobCall where
  /-- A blob was stored under a path, with a content type and a size. -/
  | upload (path contentType : String) (size : Nat)
  /-- The blob under a path was to be deleted. -/
  | delete (path : String)
  deriving DecidableEq, Repr

/-- Blobs that are kept in files: the store of them, and all of the files. -/
structure Disk where
  store : LocalStore
  tree : Files.Tree := {}

/-- The blobs, what makes the store refuse calls if it does, and the calls so far, the latest last. -/
structure Blobs where
  files : Keyed ByteArray := []
  failUploads : Option String := none
  failDeletes : Option String := none
  calls : List BlobCall := []
  /-- Where the blobs are kept instead, if they are. -/
  disk : Option Disk := none

namespace Blobs

/-- Stores a blob. A refused call leaves no trace. -/
def upload (b : Blobs) (contentType path : String) (data : ByteArray) : Except Failure Unit × Blobs :=
  match b.disk with
  | some disk =>
    let (result, tree) := disk.store.upload contentType path data disk.tree
    (result.map fun _ => (), { b with disk := some { disk with tree } })
  | none =>
    match b.failUploads with
    | some text => (.error (.storage text), b)
    | none =>
      (.ok (), { b with
        files := b.files.put path data
        calls := b.calls ++ [.upload path contentType data.size] })

/-- Deletes the blob under a path, if there is one. -/
def delete (b : Blobs) (path : String) : Except Failure Unit × Blobs :=
  match b.disk with
  | some disk =>
    let (result, tree) := disk.store.delete path disk.tree
    (result, { b with disk := some { disk with tree } })
  | none =>
    let b := { b with calls := b.calls ++ [BlobCall.delete path] }
    match b.failDeletes with
    | some text => (.error (.storage text), b)
    | none => (.ok (), { b with files := b.files.drop path })

end Blobs

end Curation
