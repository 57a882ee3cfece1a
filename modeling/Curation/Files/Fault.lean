import Curation.Files.Path
import Curation.Text.Quoted

/-! Why an operation on files fails. -/

namespace Curation.Files

/-- Why an operation on files fails. -/
inductive Fault where
  | missing
  | exists
  | notDirectory
  | isDirectory
  | nameTooLong
  deriving DecidableEq, Repr

namespace Fault

/-- The number of the fault and the words for it. -/
def description : Fault → Nat × String
  | missing => (2, "No such file or directory")
  | .exists => (17, "File exists")
  | notDirectory => (20, "Not a directory")
  | isDirectory => (21, "Is a directory")
  | nameTooLong => (36, "File name too long")

/-- The name of the kind of error. -/
def kind : Fault → String
  | missing => "FileNotFoundError"
  | .exists => "FileExistsError"
  | notDirectory => "NotADirectoryError"
  | isDirectory => "IsADirectoryError"
  | nameTooLong => "OSError"

end Fault

/-- A fault and the path that it is about. -/
structure FileError where
  fault : Fault
  path : Path
  deriving DecidableEq, Repr

def FileError.message (e : FileError) : String :=
  let (number, words) := e.fault.description
  s!"[Errno {number}] {words}: {Text.quoted e.path.text}"

end Curation.Files
