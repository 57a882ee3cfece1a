import Curation.Text.Blank
import Curation.Failure

/-! The rules for the fields of a request to create or to edit a collection. Lengths are counted in
    characters. -/

namespace Curation.Validation

abbrev minTitle : Nat := 3
abbrev maxTitle : Nat := 64
abbrev minDescription : Nat := 3
abbrev maxDescription : Nat := 255

/-- The most projects a new collection may start with. -/
abbrev maxInitialProjects : Nat := 32

/-- The most projects an edit may submit. -/
abbrev maxEditProjects : Nat := 64

/-- What is wrong with a title. A blank one has no other fault. -/
def title (t : String) : List FieldError :=
  if Text.isBlankText t then
    [⟨"title", "Name cannot contain only whitespace.", "title_blank"⟩]
  else
    (if t.length < minTitle then
      [⟨"title", s!"Title must be at least {minTitle} characters", "title_too_short"⟩] else []) ++
    (if maxTitle < t.length then
      [⟨"title", s!"Title must be at most {maxTitle} characters", "title_too_long"⟩] else [])

/-- What is wrong with a description. -/
def description (d : String) : List FieldError :=
  if d.length < minDescription || maxDescription < d.length then
    [⟨"description",
      s!"Description must be between {minDescription} and {maxDescription} characters",
      "description_length"⟩]
  else []

/-- What is wrong with a list of projects, which may not be longer than a limit. -/
def projects (ids : List String) (limit : Int) : List FieldError :=
  if limit < ids.length then
    [⟨"projects", s!"A collection may reference at most {limit} projects", "too_many_projects"⟩]
  else []

/-- What is wrong with a request to create a collection. -/
def create (t d : String) (ids : List String) : List FieldError :=
  title t ++ description d ++ projects ids maxInitialProjects

/-- What is wrong with the fields that an edit brings. -/
def edit (t d : Option String) (ids : Option (List String)) : List FieldError :=
  (t.map title).getD [] ++ (d.map description).getD [] ++
    (ids.map fun ids => projects ids maxEditProjects).getD []

/-- Succeeds if nothing is wrong. -/
def ensure (errors : List FieldError) : Except Failure Unit :=
  if errors.isEmpty then .ok () else .error (.invalid errors)

/-! ### What is valid -/

theorem ensure_eq_ok {errors : List FieldError} : ensure errors = .ok () ↔ errors = [] := by
  cases errors with
  | nil => simp [ensure]
  | cons => simp [ensure]

theorem create_eq_nil {t d : String} {ids : List String} :
    create t d ids = [] ↔ title t = [] ∧ description d = [] ∧ projects ids maxInitialProjects = [] := by
  simp [create]

theorem edit_eq_nil {t d : Option String} {ids : Option (List String)} :
    edit t d ids = [] ↔ (∀ x, t = some x → title x = []) ∧ (∀ x, d = some x → description x = []) ∧
      ∀ ps, ids = some ps → projects ps maxEditProjects = [] := by
  cases t <;> cases d <;> cases ids <;> simp [edit]

/-- A list of projects can make the other fields of an edit no more valid. -/
theorem ensure_edit_fields {t d : Option String} {ids : Option (List String)} (h : ensure (edit t d ids) = .ok ()) :
    ensure (edit t d none) = .ok () := by
  obtain ⟨ht, hd, -⟩ := edit_eq_nil.mp (ensure_eq_ok.mp h)
  exact ensure_eq_ok.mpr (edit_eq_nil.mpr ⟨ht, hd, fun _ hps => nomatch hps⟩)

theorem title_eq_nil {t : String} :
    title t = [] ↔ Text.isBlankText t = false ∧ minTitle ≤ t.length ∧ t.length ≤ maxTitle := by
  cases h : Text.isBlankText t with
  | true => simp [title, h]
  | false => simp [title, h]

theorem description_eq_nil {d : String} :
    description d = [] ↔ minDescription ≤ d.length ∧ d.length ≤ maxDescription := by
  simp [description]

theorem projects_eq_nil {ids : List String} {limit : Nat} : projects ids limit = [] ↔ ids.length ≤ limit := by
  simp [projects]

end Curation.Validation
