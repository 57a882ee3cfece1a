import Curation.Failure
import Curation.Json.Value

/-! How the tables are defined, and how a database gets them: all at once, or by the steps that lead from one
    version to another. -/

namespace Curation.Catalog

/-- A column: its type, whether it may be empty, its place in the key if it is part of it, and its default. -/
structure ColumnDefinition where
  name : String
  type : String
  nullable : Bool := false
  key : Nat := 0
  default : Option String := none
  deriving DecidableEq, Repr

/-- A reference from columns to those of another table, and what becomes of it when the other row is deleted. -/
structure ReferenceDefinition where
  columns : List String
  table : String
  targets : List String
  onDelete : String
  deriving DecidableEq, Repr

structure IndexDefinition where
  name : String
  columns : List String
  unique : Bool := false
  deriving DecidableEq, Repr

structure TableDefinition where
  name : String
  columns : List ColumnDefinition
  references : List ReferenceDefinition := []
  indexes : List IndexDefinition := []
  deriving DecidableEq, Repr

def textType (n : Nat) : String := s!"VARCHAR({n})"

/-- A column for the time of the writing of its row. -/
def timeColumn (name : String) : ColumnDefinition :=
  { name, type := "DATETIME", default := some "CURRENT_TIMESTAMP" }

def projectsDefinition : TableDefinition where
  name := "projects"
  columns := [
    { name := "id", type := textType 36, key := 1 }, { name := "title", type := textType 255 },
    timeColumn "created_at"]

def collectionsDefinition : TableDefinition where
  name := "collections"
  columns := [
    { name := "id", type := textType 36, key := 1 }, { name := "owner_user_id", type := textType 36 },
    { name := "title", type := textType 64 }, { name := "description", type := "TEXT" },
    { name := "status", type := textType 32 }, { name := "icon_url", type := textType 2048, nullable := true },
    { name := "color", type := "INTEGER", nullable := true }, timeColumn "created_at",
    timeColumn "updated_at"]
  indexes := [{ name := "ix_collections_owner_user_id", columns := ["owner_user_id"] }]

def linksDefinition : TableDefinition where
  name := "collections_projects"
  columns := [
    { name := "collection_id", type := textType 36, key := 1 },
    { name := "project_id", type := textType 36, key := 2 }]
  references := [
    ⟨["collection_id"], "collections", ["id"], "CASCADE"⟩,
    ⟨["project_id"], "projects", ["id"], "CASCADE"⟩]
  indexes := [{ name := "ix_collections_projects_project_id", columns := ["project_id"] }]

/-- The tables of the catalog, each one after those that it refers to. -/
def definitions : List TableDefinition := [projectsDefinition, collectionsDefinition, linksDefinition]

/-- The bytes of a page of a file that holds a database. -/
def pageSize : Nat := 4096

/-- The bytes of a file that holds some tables with little in them: a page for what tables there are, and one for each
    table, for its key, and for each of its other indexes. -/
def fileSize (ts : List TableDefinition) : Nat := pageSize * ts.foldl (fun pages t => pages + 2 + t.indexes.length) 1

/-- The table that holds the version of the others. -/
def versionDefinition : TableDefinition where
  name := "alembic_version"
  columns := [{ name := "version_num", type := textType 32, key := 1 }]

/-- The first lines of the statements that define a table. -/
def TableDefinition.statementLines (t : TableDefinition) : List String :=
  ("CREATE TABLE " ++ t.name ++ " (") :: t.indexes.map fun i =>
    "CREATE " ++ (if i.unique then "UNIQUE " else "") ++ "INDEX " ++ i.name ++ " ON " ++ t.name ++ " (" ++
      ", ".intercalate i.columns ++ ");"

/-- The first lines of the statements that lead to the latest version. -/
def upgradeLines : List String := (versionDefinition :: definitions).flatMap TableDefinition.statementLines

/-- The tables that a database has, and whether it is at the latest version. -/
structure Layout where
  tables : List TableDefinition := []
  latest : Bool := false
  deriving DecidableEq, Repr

namespace Layout

def has (l : Layout) (t : TableDefinition) : Bool := l.tables.any (·.name == t.name)

/-- Adds the tables that are missing. -/
def create (ts : List TableDefinition) (l : Layout) : Layout :=
  { l with tables := l.tables ++ ts.filter fun t => !l.has t }

/-- Leads to the latest version, which fails if a table is there that should not be yet. -/
def upgrade (l : Layout) : Except Failure Unit × Layout :=
  let l := l.create [versionDefinition]
  if l.latest then (.ok (), l)
  else if definitions.any l.has then (.error (.database .operational), l)
  else (.ok (), { l.create definitions with latest := true })

/-- Leads back to the state before the first version. -/
def downgrade (l : Layout) : Layout :=
  let l := l.create [versionDefinition]
  if l.latest then
    { tables := l.tables.filter fun t => !definitions.any fun d => d.name == t.name, latest := false }
  else l

/-- The tables and what they consist of, as a record. -/
def toFields (l : Layout) : Keyed Json.Value :=
  l.tables.map fun t => (t.name, .record [
    ("columns", .list (t.columns.map fun c => .list [.text c.name, .text c.type, .boolean c.nullable,
      .integer c.key, .ofOption .text c.default])),
    ("fks", .list (t.references.map fun r =>
      .list [.texts r.columns, .text r.table, .texts r.targets, .text r.onDelete])),
    ("indexes", .list (t.indexes.map fun i => .list [.text i.name, .texts i.columns, .boolean i.unique]))])

end Layout

/-! ### Rows in short -/

/-- A row in short: the kind of it, and some of its values by name. -/
def summary (kind : String) (values : List (String × Option String)) : String :=
  "<" ++ kind ++ "(" ++ ", ".intercalate (values.map fun (k, v) => k ++ "=" ++ v.getD "None") ++ ")>"

def collectionSummary (id title : Option String) : String :=
  summary "Collection" [("id", id), ("title", title)]

def linkSummary (collection project : Option String) : String :=
  summary "CollectionProject" [("collection_id", collection), ("project_id", project)]

def projectSummary (id title : Option String) : String := summary "Project" [("id", id), ("title", title)]

end Curation.Catalog
