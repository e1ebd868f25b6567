import CodeAtlas.Index.Migration

/-!
Damage done to the tables by other hands: each change either succeeds or leaves everything as it was.
Names of tables and columns are the same in capital and in small letters.
-/

namespace CodeAtlas

namespace Database

def columnsOf (table : String) : List String :=
  if table == "schema_version" then ["version", "applied_at"]
  else if table == "projects" then ["id", "name", "root_path", "description", "indexed",
    "last_indexed_at", "repository_kind", "branch", "remote_url", "created_at", "updated_at"]
  else if table == "documents" then ["id", "file_id", "project_id", "path", "relative_path", "name",
    "extension", "language", "file_type", "size", "line_count", "encoding", "last_modified",
    "last_indexed", "checksum", "content", "content_lines"]
  else if table == "doc_symbols" then ["id", "document_id", "symbol_id", "name", "kind", "line",
    "col", "end_line", "end_col", "signature", "scope", "namespace", "tags"]
  else if table == "doc_references" then ["id", "document_id", "reference_id", "symbol_id", "kind",
    "line", "col", "end_line", "end_col", "context"]
  else if table == "documents_fts" then
    ["path", "name", "content", "content_lines", "documents_fts", "rank"]
  else if table == "symbols_fts" then ["name", "signature", "scope", "symbols_fts", "rank"]
  else []

/-- The names of the number that every row has. -/
def rowNumbers : List String := ["rowid", "oid", "_rowid_"]

def hasColumn (db : Database) (table column : String) : Bool :=
  rowNumbers.contains column ||
    if db.schema.has table then (columnsOf table).contains column else column == "x"

def rowCount (db : Database) (table : String) : Nat :=
  if table == "schema_version" then db.versions.length
  else if table == "projects" then db.projects.length
  else if table == "documents" || table == "documents_fts" then db.tables.documents.length
  else if table == "doc_symbols" || table == "symbols_fts" then db.symbolRows.length
  else if table == "doc_references" then db.referenceRows.length
  else 0

def damage : String := "damaged"

/-- Whether a rule of the tables forbids that all cells of a column hold the same text: numbers of rows
are numbers, keys are unique, and a text index needs its table. -/
def forbidsDamage (db : Database) (table column : String) : Bool :=
  let rows := db.rowCount table
  if rowNumbers.contains column && rows > 0 then true
  else if table == "schema_version" then column == "version" && rows > 1
  else if table == "projects" then
    column == "id" && (rows > 1 || !db.tables.documents.isEmpty) || column == "root_path" && rows > 1
  else if table == "documents" then
    (column == "id" || column == "project_id") && rows > 0 || column == "file_id" && rows > 1 ||
      column == "project_id" && !db.schema.has "projects" ||
      db.schema.hasTrigger "documents_au" && !db.schema.has "documents_fts"
  else if table == "doc_symbols" || table == "doc_references" then
    (column == "id" || column == "document_id") && rows > 0 ||
      column == "document_id" && !db.schema.has "documents"
  else db.schema.has table &&
    (table == "documents_fts" && !db.schema.has "documents" ||
      table == "symbols_fts" && !db.schema.has "doc_symbols")

def damageProject (column : String) (row : ProjectRow) : ProjectRow :=
  let p := row.project
  match column with
  | "id" => { row with project := { p with id := damage } }
  | "name" => { row with project := { p with name := damage } }
  | "root_path" => { row with project := { p with rootPath := damage } }
  | "description" => { row with project := { p with description := damage } }
  | "repository_kind" => { row with project := { p with repositoryKind := damage } }
  | "branch" => { row with project := { p with branch := damage } }
  | "remote_url" => { row with project := { p with remoteUrl := damage } }
  | "updated_at" => row
  | _ => { row with spoiled := column :: row.spoiled }

def damageDocument (column : String) (row : DocumentCells) : DocumentCells :=
  let f := row.file
  match column with
  | "file_id" => { row with file := { f with id := damage } }
  | "path" => { row with file := { f with path := damage } }
  | "relative_path" => { row with file := { f with relativePath := damage } }
  | "name" => { row with name := damage }
  | "extension" => row
  | "language" => { row with file := { f with language := ⟨damage⟩ } }
  | "file_type" => { row with file := { f with fileType := ⟨damage⟩ } }
  | "encoding" => { row with file := { f with encoding := damage } }
  | "checksum" => { row with file := { f with checksum := damage } }
  | "content" => { row with content := damage }
  | "content_lines" => { row with numbered := damage }
  | _ => { row with spoiled := column :: row.spoiled }

def damageSymbol (column : String) (row : SymbolRow) : SymbolRow :=
  let s := row.symbol
  match column with
  | "symbol_id" => { row with symbol := { s with id := damage } }
  | "name" => { row with symbol := { s with name := damage } }
  | "kind" => { row with symbol := { s with kind := .ofName damage } }
  | "signature" => { row with symbol := { s with signature := damage } }
  | "scope" => { row with symbol := { s with scope := damage } }
  | "namespace" => { row with symbol := { s with space := damage } }
  | "tags" => { row with symbol := { s with tags := [damage] } }
  | _ => { row with spoiled := column :: row.spoiled }

def damageReference (column : String) (row : ReferenceRow) : ReferenceRow :=
  let r := row.reference
  match column with
  | "reference_id" => { row with reference := { r with id := damage } }
  | "symbol_id" => { row with reference := { r with symbolId := damage } }
  | "kind" => { row with reference := { r with kind := .ofName damage } }
  | "context" => { row with reference := { r with context := damage } }
  | _ => { row with spoiled := column :: row.spoiled }

/-- Tells a text index the old and the new texts of each row, and collects the new entries. -/
def followAll {α : Type} (texts : TextIndex) (rows : List (Keyed α))
    (change : α → Option TextEntry × List String × List String) :
    Except Cause (TextIndex × List TextEntry) := do
  let (texts, entries) ← rows.foldlM (fun (texts, entries) r => do
    let (entry, old, new) := change r.row
    let (texts, entry) ← TextIndex.change texts entry old new
    return (texts, entry :: entries)) (texts, [])
  return (texts, entries.reverse)

/-- Changes documents, which their text index follows if there is a trigger. -/
def changeDocuments (db : Database) (change : DocumentCells → DocumentCells) :
    Except Cause Database :=
  if db.schema.hasTrigger "documents_au" then do
    let (texts, entries) ← followAll db.documentTexts db.tables.documents fun row =>
      (row.entry, row.texts, (change row).texts)
    return { db with
      tables := (db.tables.mapDocuments change).noteDocuments entries
      documentTexts := texts }
  else .ok { db with tables := db.tables.mapDocuments change }

/-- Writes into a column of the text index of documents, which takes the other columns from the
documents as they are; its column for paths it reads from their full paths. -/
def damageDocumentTexts (db : Database) (column : String) : Except Cause Database := do
  let (texts, entries) ← followAll db.documentTexts db.tables.documents fun row =>
    let old := row.texts.set 0 row.file.path
    (row.entry, old, old.set ((columnsOf "documents_fts").idxOf column) damage)
  return { db with tables := db.tables.noteDocuments entries, documentTexts := texts }

def damageSymbolTexts (db : Database) (column : String) : Except Cause Database := do
  let (texts, entries) ← followAll db.symbolTexts db.tables.symbols fun row =>
    (row.entry, row.texts, row.texts.set ((columnsOf "symbols_fts").idxOf column) damage)
  return { db with tables := db.tables.noteSymbols entries, symbolTexts := texts }

def damageCells (db : Database) (table column : String) : Except Cause Database :=
  if !db.schema.has table then .ok db
  else if table == "schema_version" then
    .ok (if column == "version" then { db with versions := db.versions.map fun _ => some damage }
      else db)
  else if table == "projects" then
    .ok { db with projects := db.projects.map (damageProject column) }
  else if table == "documents" then db.changeDocuments (damageDocument column)
  else if table == "doc_symbols" then .ok { db with tables := db.tables.mapSymbols (damageSymbol column) }
  else if table == "doc_references" then
    .ok { db with tables := db.tables.mapReferences (damageReference column) }
  else if table == "documents_fts" then db.damageDocumentTexts column
  else if table == "symbols_fts" then db.damageSymbolTexts column
  else .ok db

/-- Writes the same text into all cells of a column. -/
def damageColumn? (db : Database) (tableName columnName : String) : Option Database :=
  let table := tableName.toLower
  let column := columnName.toLower
  if !db.schema.hasName table || !db.hasColumn table column || db.forbidsDamage table column then none
  else (db.damageCells table column).toOption

/-- The names that a text index takes for tables of its own. -/
def innerTables (index : String) : List String :=
  ["_data", "_idx", "_docsize", "_config"].map (index ++ ·)

/-- Makes a table of someone else's, if the name is free and not reserved. -/
def addTable? (db : Database) (table : String) : Option Database :=
  let inner := ["documents_fts", "symbols_fts"].flatMap fun index =>
    if db.schema.has index then innerTables index else []
  if db.schema.hasName table || db.schema.indexes.any (Schema.sameName ·.1 table) ||
      inner.contains table.toLower || hasPrefix "sqlite_" table.toLower then none
  else some { db with schema.tables := db.schema.tables ++ [(table, false)] }

end Database

end CodeAtlas
