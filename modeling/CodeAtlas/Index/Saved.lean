import CodeAtlas.Index.Tables
import CodeAtlas.Json.Reader
import CodeAtlas.Json.Shapes
import CodeAtlas.Json.Writer

/-!
The tables of the index as one JSON text, in which they are kept between two runs of the program.
-/

namespace CodeAtlas

open Json (strings)

namespace Saved

def columnsJson (columns : List TokenColumn) : Json :=
  .array (columns.map fun column => .array (column.map strings))

def elements (value : Json) : List Json := value.asArray?.getD []

def columns (value : Json) : List TokenColumn :=
  (elements value).map fun column => (elements column).map fun place =>
    (elements place).filterMap Json.asString?

def countsJson (counts : List Nat) : Json := .array (counts.map .nat)

def counts (value : Json) (key : String) : List Nat :=
  (value.items key).map fun n => (n.asInt?.getD 0).toNat

def entryJson : Option TextEntry → Json
  | some entry => .object [("columns", columnsJson entry.columns), ("sizes", countsJson entry.sizes)]
  | none => .null

def entry? (value : Json) : Option TextEntry :=
  let entry := value.field "entry"
  if entry.isNull then none else some ⟨columns (entry.field "columns"), counts entry "sizes"⟩

def textIndexJson (ix : TextIndex) : Json :=
  .object [("totals", countsJson ix.totals), ("count", .nat ix.count),
    ("remains", .array (ix.remains.map columnsJson))]

def textIndex (value : Json) : TextIndex :=
  ⟨counts value "totals", (value.whole "count").toNat, (value.items "remains").map columns⟩

/-- Moments, each with a note whether a clock gave it. -/
def clocksJson (moments : List Instant) : Json := .array (moments.map fun t => .bool t.fromClock)

def onClock (value : Json) (position : Nat) (t : Instant) : Instant :=
  { t with fromClock := (((value.items "clocks")[position]?).bind Json.asBool?).getD false }

def projectJson (r : ProjectRow) : Json :=
  .object [("project", r.project.toJson), ("spoiled", strings r.spoiled),
    ("clocks", clocksJson [r.project.lastIndexed, r.project.createdAt])]

def projectRow (value : Json) : ProjectRow :=
  let p := (value.field "project").project
  ⟨{ p with
      lastIndexed := onClock value 0 p.lastIndexed
      createdAt := onClock value 1 p.createdAt }, value.texts "spoiled"⟩

def symbolJson (r : SymbolRow) : Json :=
  .object [("symbol", r.symbol.toJson), ("entry", entryJson r.entry), ("spoiled", strings r.spoiled)]

def symbolRow (value : Json) : SymbolRow :=
  ⟨(value.field "symbol").symbol, entry? value, value.texts "spoiled"⟩

def referenceJson (r : ReferenceRow) : Json :=
  .object [("reference", r.reference.toJson), ("spoiled", strings r.spoiled)]

def referenceRow (value : Json) : ReferenceRow :=
  ⟨(value.field "reference").reference, value.texts "spoiled"⟩

def documentJson (r : DocumentRow) : Json :=
  .object [("file", r.file.toJson), ("name", .string r.name), ("content", .string r.content),
    ("numbered", .string r.numbered), ("symbols", .array (r.symbols.map symbolJson)),
    ("references", .array (r.references.map referenceJson)), ("entry", entryJson r.entry),
    ("spoiled", strings r.spoiled),
    ("clocks", clocksJson [r.file.lastModified, r.file.lastIndexed])]

def documentRow (value : Json) : DocumentRow :=
  let f := (value.field "file").indexedFile
  { file := { f with
      lastModified := onClock value 0 f.lastModified
      lastIndexed := onClock value 1 f.lastIndexed }
    name := value.text "name"
    content := value.text "content"
    numbered := value.text "numbered"
    symbols := (value.items "symbols").map symbolRow
    references := (value.items "references").map referenceRow
    entry := entry? value
    spoiled := value.texts "spoiled" }

def tableJson (t : String × Bool) : Json := .object [("name", .string t.1), ("proper", .bool t.2)]

def table (value : Json) : String × Bool := (value.text "name", value.isTrue "proper")

def partJson (p : String × String) : Json := .object [("name", .string p.1), ("table", .string p.2)]

def part (value : Json) : String × String := (value.text "name", value.text "table")

def schemaJson (s : Schema) : Json :=
  .object [("tables", .array (s.tables.map tableJson)), ("indexes", .array (s.indexes.map partJson)),
    ("triggers", .array (s.triggers.map partJson))]

def schema (value : Json) : Schema :=
  ⟨(value.items "tables").map table, (value.items "indexes").map part,
    (value.items "triggers").map part⟩

def versionJson : Option String → Json
  | some version => .string version
  | none => .null

def databaseJson (db : Database) : Json :=
  .object [("schema", schemaJson db.schema), ("versions", .array (db.versions.map versionJson)),
    ("projects", .array (db.projects.map projectJson)),
    ("documents", .array (db.documents.map documentJson)),
    ("document_texts", textIndexJson db.documentTexts), ("symbol_texts", textIndexJson db.symbolTexts)]

def database (value : Json) : Database :=
  ⟨schema (value.field "schema"), (value.items "versions").map Json.asString?,
    (value.items "projects").map projectRow,
    ((value.items "documents").map documentRow).foldl .insert .empty,
    textIndex (value.field "document_texts"), textIndex (value.field "symbol_texts")⟩

end Saved

namespace Database

def toText (db : Database) : String := (Saved.databaseJson db).render

/-- The tables in a text; none if it does not hold any. -/
def ofText? (text : String) : Option Database := (Json.parse? text).map Saved.database

end Database

end CodeAtlas
