import CodeAtlas.Index.Tables

/-!
Migrations bring an index to the current layout, one version after the other, and back.  A migration
is a list of single steps; if one fails, those before it stay done.
-/

namespace CodeAtlas

/-- A step that makes or drops a part of the layout.  What exists is not made again. -/
inductive SchemaStep where
  | table (name : String)
  | index (name table : String)
  | trigger (name table : String)
  /-- Fills the text index of the symbols from their rows. -/
  | findSymbols
  | dropTrigger (name : String)
  | dropTable (name : String)
  deriving DecidableEq, Repr

namespace Schema

def drop (s : Schema) (table : String) : Schema where
  tables := s.tables.filter fun t => !sameName t.1 table
  indexes := s.indexes.filter fun i => !sameName i.2 table
  triggers := s.triggers.filter fun t => !sameName t.2 table

/-- Type and name of everything in the layout, apart from what belongs to the inside of text
indexes. -/
def objects (s : Schema) : List String :=
  let shown := (s.tables.map (·.1)).filter (!containsText "_fts_" ·)
  (s.indexes.map ("index " ++ ·.1) ++ shown.map ("table " ++ ·) ++
    s.triggers.map ("trigger " ++ ·.1)).mergeSort (· ≤ ·)

end Schema

namespace Database

/-- Whether a table can be dropped: its rows go first, and with them those they own, but not if a
trigger would have to follow. -/
def requireDrop (db : Database) (table : String) : Except Cause Unit := do
  let broken : Cause := .constraint "FOREIGN KEY constraint failed (787)"
  if table == "projects" && db.schema.has "projects" && db.schema.has "documents" then
    db.schema.requireCascade
    if db.tables.documents.isEmpty then pure () else throw broken
  else if table == "documents" && db.schema.has "documents" && db.schema.has "doc_symbols" &&
      db.schema.hasTrigger "doc_symbols_ad" then
    db.schema.require "symbols_fts"
    if db.documents.all (·.symbols.isEmpty) then pure () else throw broken
  else pure ()

/-- Documents go with the rows that name them. -/
def withoutRows (db : Database) (table : String) : Database :=
  if table == "schema_version" then { db with versions := [] }
  else if table == "projects" then { db with projects := [] }
  else if table == "documents" then { db with tables := db.tables.delete fun _ => true }
  else if table == "doc_symbols" then { db with tables := db.tables.withoutSymbols }
  else if table == "doc_references" then { db with tables := db.tables.withoutReferences }
  else if table == "documents_fts" then
    { db with
      tables := db.tables.mapDocuments fun d => { d with entry := none }
      documentTexts := .empty 4 }
  else if table == "symbols_fts" then
    { db with
      tables := db.tables.mapSymbols fun s => { s with entry := none }
      symbolTexts := .empty 3 }
  else db

def dropTable (db : Database) (name : String) : Except Cause Database :=
  let table := name.toLower
  if db.schema.hasName table then do
    db.requireDrop table
    return { db.withoutRows table with schema := db.schema.drop table }
  else .error (.missing table)

def findSymbols (db : Database) : Database :=
  { db with
    tables := db.tables.mapSymbols fun s =>
      { s with entry := some (TextEntry.ofTokens (s.texts.map tokens) []) }
    symbolTexts := ((TextIndex.empty 3).addAll (db.symbolRows.map (·.texts))).1 }

def runStep (db : Database) : SchemaStep → Except Cause Database
  | .table name =>
      if db.schema.hasName name then .ok db
      else .ok { db with schema.tables := db.schema.tables ++ [(name, true)] }
  | .index name table => do
      db.schema.require table
      if db.schema.hasName name then throw (.missing name)
      if db.schema.indexes.contains (name, table) then return db
      else return { db with schema.indexes := db.schema.indexes ++ [(name, table)] }
  | .trigger name table =>
      if !db.schema.hasName table then .error (.missing table)
      else if db.schema.hasTrigger name then .ok db
      else .ok { db with schema.triggers := db.schema.triggers ++ [(name, table)] }
  | .findSymbols => do
      db.schema.require "symbols_fts"
      db.schema.require "doc_symbols"
      return db.findSymbols
  | .dropTrigger name =>
      .ok { db with schema.triggers := db.schema.triggers.filter (·.1 != name) }
  | .dropTable name =>
      if db.schema.hasName name then db.dropTable name else .ok db

/-- Runs steps up to the first that fails. -/
def runSteps (db : Database) : List SchemaStep → Database × Except Cause Unit
  | [] => (db, .ok ())
  | step :: rest =>
      match db.runStep step with
      | .ok db => db.runSteps rest
      | .error c => (db, .error c)

def addVersion (db : Database) (version : Option String) : Except Cause Database := do
  db.schema.require "schema_version"
  if version.isSome && db.versions.contains version then
    throw (.constraint "UNIQUE constraint failed: schema_version.version (1555)")
  else return { db with versions := db.versions ++ [version] }

def removeVersion (db : Database) (version : String) : Except Cause Database := do
  db.schema.require "schema_version"
  return { db with versions := db.versions.filter (· != some version) }

end Database

structure Migration where
  version : Version
  up : List SchemaStep
  down : List SchemaStep

namespace Migration

/-- The documents with their symbols, references and the text index of documents. -/
def first : Migration where
  version := ⟨1, 0, 0, "", ""⟩
  up := [.table "schema_version", .table "projects", .table "documents",
    .index "idx_documents_project" "documents", .index "idx_documents_language" "documents",
    .table "doc_symbols", .index "idx_doc_symbols_document" "doc_symbols",
    .index "idx_doc_symbols_name" "doc_symbols", .index "idx_doc_symbols_kind" "doc_symbols",
    .table "doc_references", .index "idx_doc_references_document" "doc_references",
    .index "idx_doc_references_symbol" "doc_references", .table "documents_fts",
    .trigger "documents_ai" "documents", .trigger "documents_ad" "documents",
    .trigger "documents_au" "documents"]
  down := [.dropTrigger "documents_au", .dropTrigger "documents_ad", .dropTrigger "documents_ai",
    .dropTable "documents_fts", .dropTable "doc_references", .dropTable "doc_symbols",
    .dropTable "documents", .dropTable "projects", .dropTable "schema_version"]

/-- The text index of symbols. -/
def second : Migration where
  version := ⟨1, 1, 0, "", ""⟩
  up := [.table "symbols_fts", .findSymbols, .trigger "doc_symbols_ai" "doc_symbols",
    .trigger "doc_symbols_ad" "doc_symbols"]
  down := [.dropTrigger "doc_symbols_ad", .dropTrigger "doc_symbols_ai", .dropTable "symbols_fts"]

def all : List Migration := [first, second]

end Migration

namespace Database

def readVersion : Option String → Except Fault Version
  | none => .error (.of (.unreadable "version"))
  | some text =>
      match Version.parse text with
      | .ok v => .ok v
      | .error e => .error ⟨[s!"invalid schema version {text}"], .other e.message⟩

/-- Missing versions come first. -/
def versionOrder (a b : Option String) : Bool :=
  match a, b with
  | none, _ => true
  | some _, none => false
  | some a, some b => a ≤ b

/-- The highest version that was noted, zero if there is none. -/
def currentVersion (db : Database) : Except Fault Version := do
  if db.schema.tables.all (·.1 != "schema_version") then return .zero
  failing "failed to read schema_version" (db.schema.require "schema_version")
  let versions ← (db.versions.mergeSort versionOrder).mapM readVersion
  return versions.foldl (fun best v => if best.lessThan v then v else best) .zero

def migrateUp (db : Database) (m : Migration) : Database × Except Fault Unit :=
  let name := m.version.toString
  match db.runSteps m.up with
  | (db, .error c) => (db, .error ⟨[s!"failed to apply migration {name}"], c⟩)
  | (db, .ok ()) =>
      match db.addVersion (some name) with
      | .error c => (db, .error ⟨[s!"failed to record migration {name}"], c⟩)
      | .ok db => (db, .ok ())

def migrateFrom (db : Database) (current : Version) : List Migration → Database × Except Fault Unit
  | [] => (db, .ok ())
  | m :: rest =>
      if current.lessThan m.version then
        match db.migrateUp m with
        | (db, .ok ()) => db.migrateFrom m.version rest
        | failed => failed
      else db.migrateFrom current rest

def applyMigrations (db : Database) : Database × Except Fault Unit :=
  match db.currentVersion with
  | .error f => (db, .error f)
  | .ok current => db.migrateFrom current Migration.all

def rollbackMigration (db : Database) : Database × Except Fault Unit :=
  match db.currentVersion with
  | .error f => (db, .error f)
  | .ok current =>
      let name := current.toString
      if current.order .zero == .eq then (db, .error (.of (.other "no migrations to rollback")))
      else
        match Migration.all.find? (·.version.order current == .eq) with
        | none => (db, .error (.of (.other s!"migration {name} not found")))
        | some m =>
            let name := m.version.toString
            match db.runSteps m.down with
            | (db, .error c) => (db, .error ⟨[s!"failed to rollback migration {name}"], c⟩)
            | (db, .ok ()) =>
                if m.version == Migration.first.version then (db, .ok ())
                else
                  match db.removeVersion name with
                  | .error c => (db, .error ⟨[s!"failed to remove migration record {name}"], c⟩)
                  | .ok db => (db, .ok ())

end Database

end CodeAtlas
