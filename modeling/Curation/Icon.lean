import Curation.Text.Lower
import Curation.Failure
import Curation.Image.Library

/-! Icons: the formats that are taken, how they are read, and where the blob of an icon and its address lie. -/

namespace Curation.Icon

/-- The content types of the accepted file extensions. -/
def contentTypes : List (String × String) := [
  ("bmp", "image/bmp"),
  ("gif", "image/gif"),
  ("jpeg", "image/jpeg"),
  ("jpg", "image/jpeg"),
  ("jpe", "image/jpeg"),
  ("png", "image/png"),
  ("svg", "image/svg+xml"),
  ("svgz", "image/svg+xml"),
  ("rgb", "image/x-rgb"),
  ("webp", "image/webp")]

/-- The content type of an extension in any letter case, if icons of that kind are taken. -/
def contentType? (extension : String) : Option String := contentTypes.lookup (Text.lower extension)

/-- The content type of an extension that must be one of the accepted ones. -/
def requireContentType (extension : String) : Except Failure String :=
  match contentType? extension with
  | some t => .ok t
  | none =>
    .error (.field "ext" s!"Invalid format for collection icon: {extension}" "invalid_extension")

/-- Where icons are kept, how large they may be, and what reads them. -/
structure Place where
  /-- The address that the blobs are served under, without a slash at its end. -/
  cdn : String := "http://localhost:8000/cdn"
  /-- The first part of every path. -/
  space : String := "data"
  /-- The most bytes an icon may have. -/
  maxSize : Int := 262144
  images : Image.Library := {}

namespace Place

/-- The path of the blob of an icon. -/
def path (p : Place) (id digest extension : String) : String :=
  p.space ++ "/" ++ id ++ "/" ++ digest ++ "." ++ extension

/-- The address of a blob. -/
def url (p : Place) (path : String) : String := p.cdn ++ "/" ++ path

/-- The characters after a beginning that must be there. -/
def afterPrefix? : List Char → List Char → Option (List Char)
  | [], rest => some rest
  | c :: cs, d :: ds => if c = d then afterPrefix? cs ds else none
  | _ :: _, [] => none

/-- The path of the blob at an address that `url` could have built for a path that is not empty. -/
def pathOfUrl? (p : Place) (address : String) : Option String :=
  match afterPrefix? (p.cdn ++ "/").toList address.toList with
  | some (c :: cs) => some (String.ofList (c :: cs))
  | _ => none

/-- What is said of an icon that is too large. -/
def sizeMessage (p : Place) : String := s!"Icons must be smaller than {p.maxSize.fdiv 1024}KiB"

theorem afterPrefix?_append (a b : List Char) : afterPrefix? a (a ++ b) = some b := by
  induction a with
  | nil => rfl
  | cons c a ih => simp [afterPrefix?, ih]

theorem afterPrefix?_eq_some {a b c : List Char} (h : afterPrefix? a b = some c) : b = a ++ c := by
  induction a generalizing b with
  | nil => simpa [afterPrefix?] using h
  | cons x a ih =>
    cases b with
    | nil => simp [afterPrefix?] at h
    | cons y b =>
      by_cases hxy : x = y
      · simp [afterPrefix?, hxy] at h
        rw [ih h, hxy]; rfl
      · simp [afterPrefix?, hxy] at h

end Place

end Curation.Icon
