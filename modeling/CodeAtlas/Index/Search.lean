import CodeAtlas.Index.Tables
import CodeAtlas.Index.TextIndex
import CodeAtlas.Model.Hit
import CodeAtlas.Pattern.Wildcard

/-!
Searching the tables for documents, symbols and references.
-/

namespace CodeAtlas

/-- What documents to look for; empty texts do not restrict. -/
structure DocumentQuery where
  text : String
  projectId : String
  language : String
  pathGlob : String
  limit : Int
  deriving DecidableEq, Repr, Inhabited

structure DocumentHit where
  fileId : String
  projectId : String
  path : String
  relativePath : String
  language : Language
  score : Float
  content : String
  deriving Inhabited

structure SymbolQuery where
  text : String
  kind : String
  projectId : String
  limit : Int
  deriving DecidableEq, Repr, Inhabited

structure ReferenceQuery where
  name : String
  kind : String
  projectId : String
  limit : Int
  deriving DecidableEq, Repr, Inhabited

def limitOrDefault (limit : Int) : Nat := if limit ≤ 0 then 20 else limit.toNat

def passes (wanted found : String) : Bool := wanted == "" || wanted == found

def byScore (a b : Float) (otherwise : Ordering) : Ordering :=
  if a < b then .lt else if b < a then .gt else otherwise

namespace Database

def foundDocuments (db : Database) : List (DocumentRow × TextEntry) :=
  db.documents.filterMap fun d => d.entry.map (d, ·)

def allSymbols (db : Database) : List (DocumentRow × SymbolRow) :=
  db.documents.flatMap fun d => d.symbols.map (d, ·)

def foundSymbols (db : Database) : List ((DocumentRow × SymbolRow) × TextEntry) :=
  db.allSymbols.filterMap fun (d, s) => s.entry.map ((d, s), ·)

/-- A score can be told if it is a number. -/
def requireScores {α : Type} (found : List (α × Float)) : Except Fault Unit :=
  if found.any (·.2.isNaN) then .error (.of (.unreadable "score")) else .ok ()

/-- Documents with all words of the query, the best first. -/
def searchDocuments (db : Database) (q : DocumentQuery) : Except Fault (List DocumentHit) := do
  let expression := Expression.ofQuery q.text
  if expression == "" then throw (.of .emptyQuery)
  failing "failed to execute document search" do
    db.schema.require "documents_fts"
    db.schema.require "documents"
  let found := db.documentTexts.search [1, 1, 1, 1] (Phrase.ofExpression expression) db.foundDocuments
  let found := found.filter fun (d, _) => passes q.projectId d.file.projectId &&
    passes q.language d.file.language.name && (q.pathGlob == "" || matchesGlob q.pathGlob d.file.relativePath)
  requireScores found
  let sorted := found.mergeSort fun (a, s) (b, t) =>
    (byScore s t (compare a.file.relativePath b.file.relativePath)).isLE
  return (sorted.take (limitOrDefault q.limit)).map fun (d, score) =>
    ⟨d.file.id, d.file.projectId, d.file.path, d.file.relativePath, d.file.language, -score, d.content⟩

/-- The number in a cell; cells without a number come last. -/
def numberOrder (a b : Bool × Int) : Ordering := (compare a.1 b.1).then (compare a.2 b.2)

/-- A row that is handed out must have numbers in all its cells for numbers. -/
def readable (spoiled : List String) : Except Fault Unit :=
  match spoiled with
  | [] => .ok ()
  | column :: _ => .error (.of (.unreadable column))

def symbolOf (d : DocumentRow) (s : SymbolRow) : Symbol := { s.symbol with fileId := d.file.id }

/-- Symbols by the words of the query, by kind, or both.  A symbol whose name is the query comes
before all others. -/
def searchSymbols (db : Database) (q : SymbolQuery) : Except Fault (List SymbolHit) := do
  let expression := Expression.ofQuery q.text
  let noWords := expression == ""
  if noWords && q.kind == "" then throw (.of .emptyQuery)
  failing "failed to execute symbol search" do
    if !noWords then db.schema.require "symbols_fts"
    db.schema.require "doc_symbols"
    db.schema.require "documents"
  let exactly := dropSuffix "*" (trim q.text)
  let found :=
    if noWords then db.allSymbols.map fun row => (row, 0)
    else (db.symbolTexts.search [10, 2, 1] (Phrase.ofExpression expression) db.foundSymbols).map fun
       ((d, s), score) => ((d, s), if s.symbol.name == exactly then score - 100 else score - 0)
  let found := found.filter fun ((d, s), _) =>
    passes q.kind s.symbol.kind.name && passes q.projectId d.file.projectId
  requireScores found
  let line (s : SymbolRow) : Bool × Int := (s.spoiled.contains "line", s.symbol.first.line)
  let sorted := found.mergeSort fun ((d, a), s) ((e, b), t) =>
    (byScore s t <| (compare a.symbol.name b.symbol.name).then <|
      (compare d.file.relativePath e.file.relativePath).then <| numberOrder (line a) (line b)).isLE
  let kept := sorted.take (limitOrDefault q.limit)
  kept.forM fun ((_, s), _) => readable s.spoiled
  return kept.mapIdx fun i ((d, s), score) =>
    ⟨i + 1, -score, d.file.projectId, d.file.relativePath, symbolOf d s⟩

/-- References to symbols of exactly the given name. -/
def searchReferences (db : Database) (q : ReferenceQuery) : Except Fault (List ReferenceHit) := do
  let name := trim q.name
  if name == "" then throw (.of .emptyQuery)
  failing "failed to execute reference search" do
    db.schema.require "doc_references"
    db.schema.require "documents"
    db.schema.require "doc_symbols"
  let found := (db.documents.filter fun d => passes q.projectId d.file.projectId).flatMap fun d =>
    (d.references.filter fun r => passes q.kind r.reference.kind.name).flatMap fun r =>
      (d.symbols.filter fun s => s.symbol.name == name && s.symbol.id == r.reference.symbolId).map
        fun s => (d, r, s)
  let place (r : ReferenceRow) : Position := r.reference.location.first
  let isBad (r : ReferenceRow) (column : String) : Bool := r.spoiled.contains column
  let sorted := found.mergeSort fun (d, a, _) (e, b, _) =>
    ((compare d.file.relativePath e.file.relativePath).then <|
      (numberOrder (isBad a "line", (place a).line) (isBad b "line", (place b).line)).then <|
      (numberOrder (isBad a "col", (place a).column) (isBad b "col", (place b).column)).then <|
      compare a.reference.id b.reference.id).isLE
  let kept := sorted.take (limitOrDefault q.limit)
  kept.forM fun (_, r, s) => do
    readable r.spoiled
    readable s.spoiled
  return kept.mapIdx fun i (d, r, s) =>
    ⟨i + 1, d.file.projectId, d.file.relativePath,
      { r.reference with
        fileId := d.file.id
        location := { r.reference.location with fileId := d.file.id } },
      symbolOf d s⟩

end Database

end CodeAtlas
