import CodeAtlas.Number
import CodeAtlas.Index.Search
import CodeAtlas.Index.Tamper

/-!
The index: the tables, whether they can still be reached, and the one writer that may be open.  What a
writer does is queued and shows when it commits.
-/

namespace CodeAtlas

inductive WriteOp where
  | put (document : Document)
  | deleteFile (fileId : String)
  | deleteProjectDocuments (projectId : String)
  | saveProject (project : Project)
  deriving DecidableEq, Repr

def Database.write (db : Database) (now : Instant) : WriteOp → Except Fault Database
  | .put d => db.putDocument now d
  | .deleteFile id => db.deleteFile id
  | .deleteProjectDocuments id => db.deleteProjectDocuments id
  | .saveProject p => db.updateProject p

structure IndexFigures where
  projects : Nat
  documents : Nat
  symbols : Nat
  references : Nat
  lines : Int
  lastUpdate : Instant
  deriving DecidableEq, Repr, Inhabited

/-- The queue is that of the open writer. -/
structure Index where
  database : Database
  isClosed : Bool
  queue : Option (List WriteOp)
  deriving DecidableEq, Repr, Inhabited

namespace Index

def new : Index := ⟨Database.empty.applyMigrations.1, false, none⟩

/-- Whether a command of a caller that is still interested can reach the tables. -/
def reach (ix : Index) (live : Bool) : Except Cause Unit :=
  if ix.isClosed then .error .databaseClosed
  else if !live then .error .canceled
  else .ok ()

/-- Nobody else can write while a writer has work in its queue. -/
def reachToWrite (ix : Index) (live : Bool) : Except Cause Unit := do
  ix.reach live
  if (ix.queue.getD []).isEmpty then pure () else throw .locked

def close (ix : Index) : Index := { ix with isClosed := true }

def createProject (ix : Index) (live : Bool) (now : Instant) (p : Project) : Except Fault Index := do
  failing "failed to create project" (ix.reachToWrite live)
  return { ix with database := ← ix.database.createProject now p }

def updateProject (ix : Index) (live : Bool) (p : Project) : Except Fault Index := do
  failing "failed to update project" (ix.reachToWrite live)
  return { ix with database := ← ix.database.updateProject p }

def deleteProject (ix : Index) (live : Bool) (id : String) : Except Fault Index := do
  failing "failed to delete project" (ix.reachToWrite live)
  return { ix with database := ← ix.database.deleteProject id }

def readProject (row : ProjectRow) : Except Fault Project := do
  Database.readable row.spoiled
  return { row.project with
    lastIndexed := row.project.lastIndexed.plain, createdAt := row.project.createdAt.plain }

def findProject (ix : Index) (live : Bool) (wanted : Project → Bool) : Except Fault Project := do
  plainly (ix.reach live)
  plainly (ix.database.schema.require "projects")
  match ix.database.projects.find? (wanted ·.project) with
  | none => throw (.of .notFound)
  | some row => readProject row

def projectById (ix : Index) (live : Bool) (id : String) : Except Fault Project :=
  ix.findProject live (·.id == id)

def projectByPath (ix : Index) (live : Bool) (rootPath : String) : Except Fault Project :=
  ix.findProject live (·.rootPath == rootPath)

def storedTime (t : Instant) : String := t.spell " " " +0000 UTC"

def projects (ix : Index) (live : Bool) : Except Fault (List Project) := do
  plainly (ix.reach live)
  plainly (ix.database.schema.require "projects")
  let sorted := ix.database.projects.mergeSort fun a b =>
    ((compare (storedTime a.project.createdAt) (storedTime b.project.createdAt)).then
      (compare a.project.id b.project.id)).isLE
  sorted.mapM readProject

/-- The documents of a project by path, with symbols and references but without content. -/
def documents (ix : Index) (live : Bool) (projectId : String) : Except Fault (List Document) := do
  plainly (ix.reach live)
  plainly (ix.database.schema.require "documents")
  let rows := (ix.database.documents.filter (·.file.projectId == projectId)).mergeSort
    fun a b => a.file.relativePath ≤ b.file.relativePath
  rows.forM fun d => Database.readable d.spoiled
  plainly (ix.database.schema.require "doc_symbols")
  rows.forM fun d => d.symbols.forM fun s => Database.readable s.spoiled
  plainly (ix.database.schema.require "doc_references")
  rows.forM fun d => d.references.forM fun r => Database.readable r.spoiled
  return rows.map fun d => {
    file := { d.file with
      lastModified := d.file.lastModified.plain, lastIndexed := d.file.lastIndexed.plain }
    content := ""
    symbols := d.symbols.map (Database.symbolOf d)
    references := d.references.map fun r => { r.reference with
      fileId := d.file.id, location := { r.reference.location with fileId := d.file.id } } }

/-- The latest time of indexing.  It is taken among the texts of the times, and a text with a reading
of a clock cannot be read back. -/
def lastUpdate (db : Database) : Instant :=
  if db.documents.any (·.spoiled.contains "last_indexed") then .zero
  else
    let latest := db.documents.foldl (fun best d =>
      if storedTime best < storedTime d.file.lastIndexed then d.file.lastIndexed else best) .zero
    if latest.fromClock then .zero else latest

/-- The lines of all documents.  The sum must at no point leave the signed 64-bit numbers; a cell that
cannot be read counts nothing and makes the sum a decimal, which is written with an exponent from a
million on and then cannot be read. -/
def lineTotal (db : Database) : Except Cause Int :=
  let counts := db.documents.map fun d =>
    if d.spoiled.contains "line_count" then 0 else d.file.lineCount
  if db.documents.any (·.spoiled.contains "line_count") then
    let sum := signedTotal counts
    if sum.natAbs < 1000000 then .ok sum else .error (.unreadable "line_count")
  else counts.foldlM (fun sum n => if isSigned64 (sum + n) then .ok (sum + n)
    else .error .overflow) 0

def figures (ix : Index) (live : Bool) : Except Fault IndexFigures := do
  let db := ix.database
  let lines ← failing "failed to read stats" do
    ix.reach live
    db.schema.requireName "projects"
    db.schema.require "documents"
    db.schema.requireName "doc_symbols"
    db.schema.requireName "doc_references"
    lineTotal db
  return {
    projects := db.projects.length
    documents := db.tables.documents.length
    symbols := db.tables.symbols.length
    references := db.tables.references.length
    lines
    lastUpdate := lastUpdate db }

/-- Runs a search on tables that can be reached; a search for nothing fails before. -/
def search {α : Type} (ix : Index) (live : Bool) (what : String) (run : Database → Except Fault α) :
    Except Fault α :=
  match run ix.database with
  | .error ⟨[], .emptyQuery⟩ => .error (.of .emptyQuery)
  | found => do
      failing what (ix.reach live)
      found

def searchDocuments (ix : Index) (live : Bool) (q : DocumentQuery) :
    Except Fault (List DocumentHit) :=
  ix.search live "failed to execute document search" (·.searchDocuments q)

def searchSymbols (ix : Index) (live : Bool) (q : SymbolQuery) : Except Fault (List SymbolHit) :=
  ix.search live "failed to execute symbol search" (·.searchSymbols q)

def searchReferences (ix : Index) (live : Bool) (q : ReferenceQuery) :
    Except Fault (List ReferenceHit) :=
  ix.search live "failed to execute reference search" (·.searchReferences q)

/-- Opens the writer.  There is only one; who comes second waits until the deadline. -/
def openWriter (ix : Index) : Except Fault Index :=
  if ix.queue.isSome then .error (.of .deadline)
  else if ix.isClosed then .error ⟨["failed to begin index transaction"], .databaseClosed⟩
  else .ok { ix with queue := some [] }

def submit (ix : Index) (op : WriteOp) : Except Fault Index :=
  match ix.queue with
  | none => .error (.of .writerClosed)
  | some queue => .ok { ix with queue := some (queue ++ [op]) }

/-- Makes all queued changes, or none of them if one fails or the disk refuses them.  Either way the
writer is closed. -/
def commitUnless (ix : Index) (refusal : Option Cause) (now : Instant) : Index × Except Fault Unit :=
  match ix.queue with
  | none => (ix, .error (.of .writerClosed))
  | some queue =>
      let ix := { ix with queue := none }
      match queue.foldlM (·.write now) ix.database with
      | .error f => (ix, .error (f.within "index write failed"))
      | .ok db =>
          match refusal with
          | some cause => (ix, .error ⟨["failed to commit index"], cause⟩)
          | none => ({ ix with database := db }, .ok ())

def commit (ix : Index) (now : Instant) : Index × Except Fault Unit := ix.commitUnless none now

def rollback (ix : Index) : Except Fault Index :=
  if ix.queue.isSome then .ok { ix with queue := none } else .error (.of .writerClosed)

def reachVersions (ix : Index) : Except Fault Unit :=
  failing "failed to check schema_version table" (ix.reach true)

def version (ix : Index) : Except Fault Version := do
  ix.reachVersions
  ix.database.currentVersion

/-- Changes the layout, as far as the tables can be reached. -/
def changeLayout (ix : Index) (change : Database → Database × Except Fault Unit) :
    Index × Except Fault Unit :=
  match ix.reachVersions with
  | .error f => (ix, .error f)
  | .ok () =>
      let (db, r) := change ix.database
      ({ ix with database := db }, r)

def migrate (ix : Index) : Index × Except Fault Unit := ix.changeLayout (·.applyMigrations)

def rollBackLayout (ix : Index) : Index × Except Fault Unit :=
  ix.changeLayout (·.rollbackMigration)

/-- Opens the stored tables once more, as a program that is started again does. -/
def reopen (ix : Index) : Index × Except Fault Unit :=
  let (db, r) := ix.database.applyMigrations
  ({ ix with database := db }, inContext "failed to apply migrations" r)

end Index

end CodeAtlas
