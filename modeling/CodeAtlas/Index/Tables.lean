import CodeAtlas.Index.Document
import CodeAtlas.Index.Fault
import CodeAtlas.Index.TextIndex
import CodeAtlas.Text.Blank

/-!
The tables of the index.  Symbols and references stand in tables of their own and name the document they
belong to by its number; when a document goes, the rows that name it are looked for and go with it.  Rows
stand in the order in which they were made.  Two text indexes follow the documents and the symbols: a
row that is in one keeps its entry.
-/

namespace CodeAtlas

/-- A row with the names of those of its columns whose cells cannot be read. -/
structure ProjectRow where
  project : Project
  spoiled : List String
  deriving DecidableEq, Repr, Inhabited

structure SymbolRow where
  symbol : Symbol
  entry : Option TextEntry
  spoiled : List String
  deriving DecidableEq, Repr, Inhabited

structure ReferenceRow where
  reference : Reference
  spoiled : List String
  deriving DecidableEq, Repr, Inhabited

/-- What the table of documents itself has of a document. -/
structure DocumentCells where
  file : IndexedFile
  name : String
  content : String
  numbered : String
  entry : Option TextEntry
  spoiled : List String
  deriving DecidableEq, Repr, Inhabited

/-- A document joined with the rows of the other tables that name it. -/
structure DocumentRow extends DocumentCells where
  symbols : List SymbolRow
  references : List ReferenceRow
  deriving DecidableEq, Repr, Inhabited

/-- A row with the number of a document: among the documents its own, elsewhere that of the document it
belongs to. -/
structure Keyed (α : Type) where
  document : Nat
  row : α
  deriving DecidableEq, Repr, Inhabited

/-- Numbers of documents are given in ascending order, and none is given twice. -/
structure Numbering (documents : List (Keyed DocumentCells)) (symbols : List (Keyed SymbolRow))
    (references : List (Keyed ReferenceRow)) (next : Nat) : Prop where
  distinct : (documents.map (·.document)).Nodup
  documents_lt : ∀ d ∈ documents, d.document < next
  symbols_lt : ∀ s ∈ symbols, s.document < next
  references_lt : ∀ r ∈ references, r.document < next

/-- The tables of documents, symbols and references, and the number of the next document. -/
@[ext]
structure DocumentTables where
  documents : List (Keyed DocumentCells)
  symbols : List (Keyed SymbolRow)
  references : List (Keyed ReferenceRow)
  next : Nat
  numbering : Numbering documents symbols references next
  deriving DecidableEq, Repr

/-- Which tables, indexes and triggers there are, the latter two with the table they belong to.  A
table that was made by someone else is not proper: it has none of the columns it should have. -/
structure Schema where
  tables : List (String × Bool)
  indexes : List (String × String)
  triggers : List (String × String)
  deriving DecidableEq, Repr, Inhabited

namespace Schema

def none : Schema := ⟨[], [], []⟩

/-- Names are the same in capital and in small letters. -/
def sameName (a b : String) : Bool := a.toLower == b.toLower

def hasName (s : Schema) (table : String) : Bool := s.tables.any (sameName ·.1 table)

/-- Whether there is the proper table. -/
def has (s : Schema) (table : String) : Bool := s.tables.contains (table, true)

def hasTrigger (s : Schema) (name : String) : Bool := s.triggers.any (·.1 == name)

/-- What counting rows needs. -/
def requireName (s : Schema) (table : String) : Except Cause Unit :=
  if s.hasName table then .ok () else .error (.missing table)

/-- What reading cells needs. -/
def require (s : Schema) (table : String) : Except Cause Unit :=
  if s.has table then .ok () else .error (.missing table)

/-- What following a document that goes needs: the triggers on the way write to the text indexes. -/
def requireCascade (s : Schema) : Except Cause Unit := do
  if s.hasTrigger "documents_ad" then s.require "documents_fts"
  if s.has "doc_symbols" && s.hasTrigger "doc_symbols_ad" then s.require "symbols_fts"

/-- What deleting documents needs: their projects are looked up, too. -/
def requireDelete (s : Schema) : Except Cause Unit := do
  s.require "documents"
  s.require "projects"
  s.requireCascade

/-- What deleting projects needs: their documents go with them. -/
def requireDeleteProject (s : Schema) : Except Cause Unit := do
  s.require "projects"
  if s.has "documents" then s.requireCascade

def requireInsert (s : Schema) : Except Cause Unit := do
  s.require "documents"
  s.require "projects"
  if s.hasTrigger "documents_ai" then s.require "documents_fts"

def requireInsertSymbol (s : Schema) : Except Cause Unit := do
  s.require "doc_symbols"
  if s.hasTrigger "doc_symbols_ai" then s.require "symbols_fts"

end Schema

namespace SymbolRow

/-- Tags are kept as one text with commas, so that a comma in a tag divides it. -/
def storedTags (tags : List String) : List String :=
  let text := ",".intercalate tags
  if text == "" then [] else splitText ',' text

def ofSymbol (s : Symbol) : SymbolRow := ⟨{ s with tags := storedTags s.tags }, none, []⟩

def texts (row : SymbolRow) : List String := [row.symbol.name, row.symbol.signature, row.symbol.scope]

end SymbolRow

namespace DocumentCells

def texts (row : DocumentCells) : List String :=
  [row.file.relativePath, row.name, row.content, row.numbered]

end DocumentCells

namespace DocumentRow

def ofDocument (d : Document) : DocumentRow where
  file := d.file
  name := d.name
  content := d.content
  numbered := numberLines d.content
  symbols := d.symbols.map .ofSymbol
  references := d.references.map (⟨·, []⟩)
  entry := none
  spoiled := []

end DocumentRow

namespace Keyed

variable {α : Type}

def map (f : α → α) (r : Keyed α) : Keyed α := { r with row := f r.row }

/-- The rows that name a document. -/
def rowsOf (rows : List (Keyed α)) (number : Nat) : List α :=
  (rows.filter (·.document == number)).map (·.row)

/-- What is left of the rows when some documents have gone. -/
def cascade (rows : List (Keyed α)) (gone : List Nat) : List (Keyed α) :=
  rows.filter fun r => !gone.contains r.document

/-- Notes something in each row, in their order. -/
def noteAll {β : Type} (f : β → α → α) (rows : List (Keyed α)) (notes : List β) : List (Keyed α) :=
  (rows.zip notes).map fun (r, note) => r.map (f note)

theorem map_document_map (f : α → α) (rows : List (Keyed α)) :
    (rows.map (map f)).map (·.document) = rows.map (·.document) := by
  rw [List.map_map]
  rfl

theorem forall_map {f : α → α} {rows : List (Keyed α)} {next : Nat}
    (h : ∀ r ∈ rows, r.document < next) : ∀ r ∈ rows.map (map f), r.document < next := by
  intro r hr
  obtain ⟨old, hold, rfl⟩ := List.mem_map.mp hr
  exact h old hold

theorem forall_append {rows : List (Keyed α)} {added : List α} {next : Nat}
    (h : ∀ r ∈ rows, r.document < next) :
    ∀ r ∈ rows ++ added.map (Keyed.mk next), r.document < next + 1 := by
  intro r hr
  rcases List.mem_append.mp hr with hr | hr
  · exact Nat.lt_succ_of_lt (h r hr)
  · obtain ⟨a, -, rfl⟩ := List.mem_map.mp hr
    exact Nat.lt_succ_self next

theorem forall_push {rows : List (Keyed α)} {next : Nat} (h : ∀ r ∈ rows, r.document < next) (a : α) :
    ∀ r ∈ rows ++ [⟨next, a⟩], r.document < next + 1 := by
  have hadded : ∀ r ∈ rows ++ [a].map (Keyed.mk next), r.document < next + 1 := forall_append h
  exact hadded

theorem nodup_push {rows : List (Keyed α)} {next : Nat} (hdistinct : (rows.map (·.document)).Nodup)
    (h : ∀ r ∈ rows, r.document < next) (a : α) :
    ((rows ++ [Keyed.mk next a]).map (·.document)).Nodup := by
  rw [List.map_append, List.nodup_append]
  refine ⟨hdistinct, List.pairwise_singleton _ _, ?_⟩
  rintro number hnumber other hother rfl
  obtain ⟨r, hr, rfl⟩ := List.mem_map.mp hnumber
  have hlt := h r hr
  rw [List.mem_singleton.mp hother] at hlt
  exact Nat.lt_irrefl next hlt

theorem noteAll_sublist {β : Type} (f : β → α → α) (rows : List (Keyed α)) (notes : List β) :
    ((noteAll f rows notes).map (·.document)).Sublist (rows.map (·.document)) := by
  induction rows generalizing notes with
  | nil => exact .slnil
  | cons r rest ih =>
      cases notes with
      | nil => exact List.nil_sublist _
      | cons note notes => exact (ih notes).cons_cons r.document

theorem forall_noteAll {β : Type} {f : β → α → α} {rows : List (Keyed α)} {notes : List β} {next : Nat}
    (h : ∀ r ∈ rows, r.document < next) : ∀ r ∈ noteAll f rows notes, r.document < next := by
  intro r hr
  obtain ⟨⟨old, note⟩, hold, rfl⟩ := List.mem_map.mp hr
  exact h old (List.of_mem_zip hold).1

theorem forall_nil (next : Nat) : ∀ r ∈ ([] : List (Keyed α)), r.document < next := by
  intro r hr
  exact absurd hr List.not_mem_nil

end Keyed

namespace DocumentTables

def empty : DocumentTables where
  documents := []
  symbols := []
  references := []
  next := 0
  numbering := ⟨.nil, Keyed.forall_nil 0, Keyed.forall_nil 0, Keyed.forall_nil 0⟩

instance : Inhabited DocumentTables := ⟨empty⟩

/-- The documents, each joined with the symbols and references that name it. -/
def joined (t : DocumentTables) : List DocumentRow :=
  t.documents.map fun d =>
    { toDocumentCells := d.row
      symbols := Keyed.rowsOf t.symbols d.document
      references := Keyed.rowsOf t.references d.document }

/-- Puts a row under the next number into the table of documents; the rows of its symbols and references
get the same number. -/
def insert (t : DocumentTables) (row : DocumentRow) : DocumentTables where
  documents := t.documents ++ [⟨t.next, row.toDocumentCells⟩]
  symbols := t.symbols ++ row.symbols.map (Keyed.mk t.next)
  references := t.references ++ row.references.map (Keyed.mk t.next)
  next := t.next + 1
  numbering :=
    ⟨Keyed.nodup_push t.numbering.distinct t.numbering.documents_lt _,
      Keyed.forall_push t.numbering.documents_lt _, Keyed.forall_append t.numbering.symbols_lt,
      Keyed.forall_append t.numbering.references_lt⟩

/-- Deletes documents by their files.  The rule between the tables then deletes all rows that name one of
them. -/
def delete (t : DocumentTables) (goes : IndexedFile → Bool) : DocumentTables where
  documents := t.documents.filter fun d => !goes d.row.file
  symbols := Keyed.cascade t.symbols ((t.documents.filter (goes ·.row.file)).map (·.document))
  references := Keyed.cascade t.references ((t.documents.filter (goes ·.row.file)).map (·.document))
  next := t.next
  numbering :=
    ⟨t.numbering.distinct.sublist (List.filter_sublist.map _),
      fun d hd => t.numbering.documents_lt d (List.mem_filter.mp hd).1,
      fun s hs => t.numbering.symbols_lt s (List.mem_filter.mp hs).1,
      fun r hr => t.numbering.references_lt r (List.mem_filter.mp hr).1⟩

def mapDocuments (t : DocumentTables) (f : DocumentCells → DocumentCells) : DocumentTables where
  documents := t.documents.map (Keyed.map f)
  symbols := t.symbols
  references := t.references
  next := t.next
  numbering :=
    ⟨by rw [Keyed.map_document_map]; exact t.numbering.distinct,
      Keyed.forall_map t.numbering.documents_lt, t.numbering.symbols_lt, t.numbering.references_lt⟩

def mapSymbols (t : DocumentTables) (f : SymbolRow → SymbolRow) : DocumentTables where
  documents := t.documents
  symbols := t.symbols.map (Keyed.map f)
  references := t.references
  next := t.next
  numbering :=
    ⟨t.numbering.distinct, t.numbering.documents_lt, Keyed.forall_map t.numbering.symbols_lt,
      t.numbering.references_lt⟩

def mapReferences (t : DocumentTables) (f : ReferenceRow → ReferenceRow) : DocumentTables where
  documents := t.documents
  symbols := t.symbols
  references := t.references.map (Keyed.map f)
  next := t.next
  numbering :=
    ⟨t.numbering.distinct, t.numbering.documents_lt, t.numbering.symbols_lt,
      Keyed.forall_map t.numbering.references_lt⟩

/-- Notes the entries that the text index has for the documents, in their order. -/
def noteDocuments (t : DocumentTables) (entries : List TextEntry) : DocumentTables where
  documents := Keyed.noteAll (fun entry row => { row with entry := some entry }) t.documents entries
  symbols := t.symbols
  references := t.references
  next := t.next
  numbering :=
    ⟨t.numbering.distinct.sublist (Keyed.noteAll_sublist _ t.documents entries),
      Keyed.forall_noteAll t.numbering.documents_lt, t.numbering.symbols_lt, t.numbering.references_lt⟩

def noteSymbols (t : DocumentTables) (entries : List TextEntry) : DocumentTables where
  documents := t.documents
  symbols := Keyed.noteAll (fun entry row => { row with entry := some entry }) t.symbols entries
  references := t.references
  next := t.next
  numbering :=
    ⟨t.numbering.distinct, t.numbering.documents_lt, Keyed.forall_noteAll t.numbering.symbols_lt,
      t.numbering.references_lt⟩

def withoutSymbols (t : DocumentTables) : DocumentTables where
  documents := t.documents
  symbols := []
  references := t.references
  next := t.next
  numbering :=
    ⟨t.numbering.distinct, t.numbering.documents_lt, Keyed.forall_nil _, t.numbering.references_lt⟩

def withoutReferences (t : DocumentTables) : DocumentTables where
  documents := t.documents
  symbols := t.symbols
  references := []
  next := t.next
  numbering :=
    ⟨t.numbering.distinct, t.numbering.documents_lt, t.numbering.symbols_lt, Keyed.forall_nil _⟩

end DocumentTables

structure Database where
  schema : Schema
  versions : List (Option String)
  projects : List ProjectRow
  tables : DocumentTables
  documentTexts : TextIndex
  symbolTexts : TextIndex
  deriving DecidableEq, Repr, Inhabited

namespace Database

def empty : Database := ⟨.none, [], [], .empty, .empty 4, .empty 3⟩

def documents (db : Database) : List DocumentRow := db.tables.joined

def symbolRows (db : Database) : List SymbolRow := db.tables.symbols.map (·.row)

def referenceRows (db : Database) : List ReferenceRow := db.tables.references.map (·.row)

def hasProject (db : Database) (id : String) : Bool := db.projects.any (·.project.id == id)

/-- A file without a time of indexing was indexed now. -/
def stamped (now : Instant) (d : Document) : Document :=
  if d.file.lastIndexed.isZero then { d with file := { d.file with lastIndexed := now } } else d

/-- What the triggers tell the text indexes of a document that goes and of the symbols that go with it. -/
def dropDocument (db : Database) (row : DocumentRow) : Except Cause Database := do
  let documentTexts ←
    if db.schema.hasTrigger "documents_ad" then db.documentTexts.drop row.entry row.texts
    else pure db.documentTexts
  let symbolTexts ←
    if db.schema.hasTrigger "doc_symbols_ad" then
      row.symbols.foldlM (fun ix s => ix.drop s.entry s.texts) db.symbolTexts
    else pure db.symbolTexts
  return { db with documentTexts, symbolTexts }

/-- Deletes documents by their files, with the rows that name them. -/
def dropDocuments (db : Database) (goes : IndexedFile → Bool) : Except Cause Database := do
  let left ← (db.documents.filter (goes ·.file)).foldlM dropDocument db
  return { left with tables := db.tables.delete goes }

/-- Adds a document; the triggers tell the text indexes. -/
def addDocument (db : Database) (row : DocumentRow) : Database :=
  let (db, row) :=
    if db.schema.hasTrigger "documents_ai" then
      let (documentTexts, entry) := db.documentTexts.add [] row.texts
      ({ db with documentTexts }, { row with entry := some entry })
    else (db, row)
  let (db, row) :=
    if db.schema.hasTrigger "doc_symbols_ai" then
      let (symbolTexts, entries) := db.symbolTexts.addAll (row.symbols.map (·.texts))
      ({ db with symbolTexts }, { row with
        symbols := (row.symbols.zip entries).map fun (s, entry) => { s with entry := some entry } })
    else (db, row)
  { db with tables := db.tables.insert row }

/-- Replaces the document of a file.  Its project has to exist. -/
def putDocument (db : Database) (now : Instant) (d : Document) : Except Fault Database := do
  let db ← failing s!"failed to replace document {d.file.relativePath}" do
    db.schema.requireDelete
    db.dropDocuments (·.id == d.file.id)
  failing s!"failed to insert document {d.file.relativePath}" do
    db.schema.requireInsert
    if db.hasProject d.file.projectId then pure ()
    else throw (.constraint "FOREIGN KEY constraint failed (787)")
  d.symbols.forM fun s =>
    failing s!"failed to insert symbol {s.name}" db.schema.requireInsertSymbol
  d.references.forM fun r =>
    failing s!"failed to insert reference {r.id}" (db.schema.require "doc_references")
  return db.addDocument (.ofDocument (stamped now d))

def deleteFile (db : Database) (fileId : String) : Except Fault Database :=
  failing s!"failed to delete document {fileId}" do
    db.schema.requireDelete
    db.dropDocuments (·.id == fileId)

def deleteProjectDocuments (db : Database) (projectId : String) : Except Fault Database :=
  failing s!"failed to delete documents of project {projectId}" do
    db.schema.requireDelete
    db.dropDocuments (·.projectId == projectId)

/-- Adds a project; identifiers and roots are unique. -/
def createProject (db : Database) (now : Instant) (p : Project) : Except Fault Database := do
  failing "failed to create project" (db.schema.require "projects")
  if db.projects.any fun row => row.project.id == p.id || row.project.rootPath == p.rootPath then
    throw ⟨[s!"project {p.rootPath}"], .alreadyExists⟩
  let p := if p.createdAt.isZero then { p with createdAt := now } else p
  return { db with projects := db.projects ++ [⟨p, []⟩] }

/-- Sets what may change of a project: not its root and not when it was created. -/
def updateProject (db : Database) (p : Project) : Except Fault Database := do
  failing "failed to update project" (db.schema.require "projects")
  if db.hasProject p.id then
    return { db with projects := db.projects.map fun row =>
      if row.project.id == p.id then
        ⟨{ p with rootPath := row.project.rootPath, createdAt := row.project.createdAt },
          row.spoiled.filter fun c => c != "indexed" && c != "last_indexed_at"⟩
      else row }
  else throw ⟨[s!"project {p.id}"], .notFound⟩

/-- Deletes a project with all its documents. -/
def deleteProject (db : Database) (id : String) : Except Fault Database := do
  let db ← failing "failed to delete project" do
    db.schema.requireDeleteProject
    db.dropDocuments (·.projectId == id)
  if db.hasProject id then
    return { db with projects := db.projects.filter (·.project.id != id) }
  else throw ⟨[s!"project {id}"], .notFound⟩

end Database

end CodeAtlas
