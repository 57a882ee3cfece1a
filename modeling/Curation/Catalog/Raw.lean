import Curation.Catalog.State
import Curation.Json.Value

/-! Statements given as data: a table, and values for its columns by name. They pass by every rule of the
    program and keep only those of the database. -/

namespace Curation.Catalog

open Time (Instant Stamp)
open Cell (Affinity)

/-- Values by the names of their columns; an empty cell has none. -/
abbrev Cells := Keyed (Option Cell)

/-- The tables. -/
inductive TableName where
  | collections
  | links
  | projects
  deriving DecidableEq, Repr

/-- A name in lower case; capitals make no difference in names. -/
def nameKey (name : String) : String := String.ofList (name.toList.map Char.toLower)

namespace TableName

def all : List TableName := [collections, links, projects]

def word : TableName → String
  | collections => "collections"
  | links => "collections_projects"
  | projects => "projects"

def ofWord? (w : String) : Option TableName := all.find? fun t => t.word == nameKey w

/-- The columns of a table, and what each is for. -/
def columns : TableName → Keyed Affinity
  | collections => [
    ("id", .text), ("owner_user_id", .text), ("title", .text), ("description", .text), ("status", .text),
    ("icon_url", .text), ("color", .number), ("created_at", .number), ("updated_at", .number)]
  | links => [("collection_id", .text), ("project_id", .text)]
  | projects => [("id", .text), ("title", .text), ("created_at", .number)]

/-- The columns that a new row must have. -/
def requiredColumns : TableName → List String
  | collections => ["id", "owner_user_id", "title", "description", "status"]
  | links => ["collection_id", "project_id"]
  | projects => ["id", "title"]

end TableName

/-- The names of the number that a row has in its table. -/
def numberNames : List String := ["rowid", "oid", "_rowid_"]

/-- The value as a column keeps it. -/
def TableName.keep (t : TableName) (column : String) (v : Option Cell) : Option Cell :=
  v.map ((t.columns.get? column).getD .number).keep

/-! ### Rows -/

def ofText (s : String) : Option Cell := some (.text s)

/-- The values of a row of collections. -/
def rowCells (r : Row) : Cells := [
  ("id", ofText r.id), ("owner_user_id", ofText r.owner), ("title", ofText r.title),
  ("description", ofText r.description), ("status", ofText r.status), ("icon_url", r.iconUrl.map .text),
  ("color", r.color), ("created_at", some r.created.toCell), ("updated_at", some r.updated.toCell)]

def linkCells (l : Link) : Cells := [("collection_id", ofText l.collection), ("project_id", ofText l.project)]

def projectCells (p : Project) : Cells := [("id", ofText p.id), ("title", ofText p.title)]

/-- The value that a cell must have. -/
def present : Option Cell → Except Refusal Cell
  | some c => .ok c
  | none => .error .integrity

/-- The text that a cell must have. -/
def presentText (v : Option Cell) : Except Refusal String := (present v).map Cell.toText

/-- Sets the value of a column in a row of collections. -/
def putInRow (r : Row) (column : String) (v : Option Cell) : Except Refusal Row :=
  match column with
  | "id" => do return { r with id := ← presentText v }
  | "owner_user_id" => do return { r with owner := ← presentText v }
  | "title" => do return { r with title := ← presentText v }
  | "description" => do return { r with description := ← presentText v }
  | "status" => do return { r with status := ← presentText v }
  | "icon_url" => .ok { r with iconUrl := v.map Cell.toText }
  | "color" => .ok { r with color := v }
  | "created_at" => do return { r with created := .other (← present v) }
  | "updated_at" => do return { r with updated := .other (← present v) }
  | _ => .error .operational

def putInLink (l : Link) (column : String) (v : Option Cell) : Except Refusal Link :=
  match column with
  | "collection_id" => do return { l with collection := ← presentText v }
  | "project_id" => do return { l with project := ← presentText v }
  | _ => .error .operational

def putInProject (p : Project) (column : String) (v : Option Cell) : Except Refusal Project :=
  match column with
  | "id" => do return { p with id := ← presentText v }
  | "title" => do return { p with title := ← presentText v }
  | "created_at" => do
    let _ ← present v
    return p
  | _ => .error .operational

/-- Sets the values of several columns in a row. -/
def putAll (put : α → String → Option Cell → Except Refusal α) (cells : Cells) (row : α) : Except Refusal α :=
  cells.foldlM (fun r (column, v) => put r column v) row

/-- All of the conditions hold of the values. Nothing holds of an empty cell. -/
def meets (conditions cells : Cells) : Bool :=
  conditions.all fun (column, v) => v.isSome && (cells.get? column).any fun w => w == v

/-- The rows of a table, and whether the conditions hold of each. A row also has a number, by its place. -/
def chosen (cells : α → Cells) (conditions : Cells) (rows : List α) : List (α × Bool) :=
  rows.zipIdx.map fun (r, i) =>
    let number : Option Cell := some (.integer (i + 1))
    (r, meets conditions (numberNames.map (·, number) ++ cells r))

/-- Sets values in the rows that are chosen, and counts them. -/
def changeChosen (put : α → String → Option Cell → Except Refusal α) (set : Cells) (rows : List (α × Bool)) :
    Except Refusal (Nat × List α) := do
  let changed ← rows.mapM fun (r, hit) => if hit then putAll put set r else .ok r
  return ((rows.filter (·.2)).length, changed)

/-- Parts the rows that are chosen from the others. -/
def part (rows : List (α × Bool)) : List α × List α :=
  let (gone, kept) := rows.partition (·.2)
  (gone.map (·.1), kept.map (·.1))

/-- All rows of the tables in the order of their keys, each one as the list of its values; of projects only the
    ids. -/
def dump (t : Tables) : Keyed Json.Value :=
  let row (cells : Cells) : Json.Value := .list (cells.map fun c => .ofOption Cell.toValue c.2)
  let links := (sorted (distinct (t.links.map (·.collection)))).flatMap fun c =>
    (t.membersOf c).map fun p => linkCells ⟨c, p⟩
  [("collections", .list ((t.rowsOf (t.collections.map (·.id))).map fun r => row (rowCells r))),
    ("collections_projects", .list (links.map row)),
    ("projects", .list ((sorted (t.projects.map (·.id))).map fun p => .texts [p]))]

/-! ### Statements -/

/-- The tables, unless keys are repeated, or references are enforced and broken. -/
def settled (enforce : Bool) (t : Tables) : Except Refusal Tables :=
  if (t.collections.map (·.id)).Nodup && t.links.Nodup && (t.projects.map (·.id)).Nodup &&
      (!enforce || t.links.all t.supports) then .ok t
  else .error .integrity

/-- A statement given as data. -/
inductive RawStatement where
  | insert (table : TableName) (row : Cells)
  | update (table : TableName) (conditions set : Cells)
  | delete (table : TableName) (conditions : Cells)
  deriving Repr

namespace RawStatement

/-- What a statement does to the tables, and how many rows it is about. -/
def run (now : Instant) (enforce : Bool) : RawStatement → Tables → Except Refusal (Nat × Tables)
  | insert table row, t => do
    unless table.requiredColumns.all fun c => (row.get? c).isSome do .error .integrity
    let written : RowTime := .stamp (.second now)
    match table with
    | .collections =>
      let r ← putAll putInRow row {
        id := "", owner := "", title := "", description := "", status := "", iconUrl := none, color := none
        created := written, updated := written }
      return (1, ← settled enforce { t with collections := t.collections ++ [r] })
    | .links =>
      return (1, ← settled enforce { t with links := t.links ++ [← putAll putInLink row ⟨"", ""⟩] })
    | .projects =>
      return (1, ← settled enforce { t with projects := t.projects ++ [← putAll putInProject row ⟨"", ""⟩] })
  | update table conditions set, t => do
    match table with
    | .collections =>
      let (n, collections) ← changeChosen putInRow set (chosen rowCells conditions t.collections)
      return (n, ← settled enforce { t with collections })
    | .links =>
      let (n, links) ← changeChosen putInLink set (chosen linkCells conditions t.links)
      return (n, ← settled enforce { t with links })
    | .projects =>
      let (n, projects) ← changeChosen putInProject set (chosen projectCells conditions t.projects)
      return (n, ← settled enforce { t with projects })
  | delete table conditions, t => do
    match table with
    | .collections =>
      let (gone, kept) := part (chosen rowCells conditions t.collections)
      let links := if enforce then t.links.filter fun l => !gone.any (·.id == l.collection) else t.links
      return (gone.length, { t with collections := kept, links })
    | .links =>
      let (gone, kept) := part (chosen linkCells conditions t.links)
      return (gone.length, { t with links := kept })
    | .projects =>
      let (gone, kept) := part (chosen projectCells conditions t.projects)
      let links := if enforce then t.links.filter fun l => !gone.any (·.id == l.project) else t.links
      return (gone.length, { t with projects := kept, links })

/-- Runs a statement in the session. -/
def execute (r : RawStatement) : Act Nat := do
  let s ← get
  Act.execute (r.run s.now s.db.enforce)

end RawStatement

/-! ### Statements in records -/

/-- The fields of a field of a record, by names in lower case. -/
def fieldsIn (record : Keyed Json.Value) (name : String) : Keyed Json.Value :=
  match record.get? name with
  | some (.record fields) => fields.map fun (k, v) => (nameKey k, v)
  | _ => []

/-- Sends values with a statement: they must be of kinds that cells can hold, and in their range. Each is kept as its
    column keeps it. -/
def bind (table : TableName) (fields : Keyed Json.Value) : Except Failure Cells :=
  fields.mapM fun (column, v) =>
    match Cell.ofValue v with
    | .error _ => .error (.database .programming)
    | .ok (some (.integer n)) =>
      if Cell.fits n then .ok (column, table.keep column (some (.integer n))) else .error (.overflow .integer)
    | .ok v => .ok (column, table.keep column v)

/-- A table has all of the columns. -/
def known (table : TableName) (others : List String) (fields : Keyed Json.Value) : Except Failure Unit :=
  if fields.keys.all fun c => table.columns.keys.contains c || others.contains c then .ok ()
  else .error (.database .operational)

/-- The statement that a record describes. -/
def RawStatement.ofRecord (record : Keyed Json.Value) : Except Failure RawStatement := do
  let text (name : String) := ((record.get? name).bind Json.Value.text?).getD ""
  let row := fieldsIn record "row"
  let set := fieldsIn record "set"
  let conditions := fieldsIn record "where"
  match TableName.ofWord? (text "table") with
  | none => .error (.database .operational)
  | some table =>
    known table [] (row ++ set)
    known table numberNames conditions
    match text "raw" with
    | "insert" => return .insert table (← bind table row)
    | "update" =>
      let set ← bind table set
      return .update table (← bind table conditions) set
    | _ => return .delete table (← bind table conditions)

/-- Runs the statement that a record describes. -/
def RawStatement.executeRecord (record : Keyed Json.Value) : Act Nat := do
  Act.begin
  match ofRecord record with
  | .ok statement => statement.execute
  | .error e => throw e

/-- Makes the database refuse every write from now on, or accept writes again. -/
def setReadOnly (on : Bool) : Act Unit := do
  Act.begin
  Act.update fun s => { s with db.readOnly := on }

end Curation.Catalog
