import CodeAtlas.Engine.Run
import CodeAtlas.Graph.Basic
import CodeAtlas.Graph.Shapes
import CodeAtlas.Search.Searcher
import CodeAtlas.Search.Shapes

/-!
The JSON shapes of figures.
-/

namespace CodeAtlas

open Json (int nat strings)

def tallyJson (counts : List (String × Nat)) : Json :=
  .object (counts.map fun (name, n) => (name, nat n))

def RunFigures.toJson (r : RunFigures) : Json :=
  .object ([("project_id", .string r.projectId), ("files", nat r.files),
    ("files_indexed", nat r.filesIndexed), ("files_unchanged", nat r.filesUnchanged),
    ("files_skipped", nat r.filesSkipped), ("files_failed", nat r.filesFailed),
    ("files_removed", nat r.filesRemoved), ("lines", int r.lines), ("symbols", nat r.symbols),
    ("references", nat r.references), ("languages", tallyJson r.languages),
    ("file_types", tallyJson r.fileTypes)] ++
    if r.errors.isEmpty then [] else [("errors", strings r.errors)])

def EngineFigures.toJson (f : EngineFigures) : Json :=
  .object [("total_projects", nat f.projects), ("total_files", nat f.files),
    ("total_lines", int f.lines), ("total_symbols", nat f.symbols),
    ("total_references", nat f.references), ("last_update", f.lastUpdate.toJson),
    ("languages", tallyJson f.languages), ("file_types", tallyJson f.fileTypes)]

def CouplingRow.toJson (r : CouplingRow) : Json :=
  .object [("symbol_id", .string r.symbolId), ("name", .string r.name),
    ("afferent", nat r.coupling.afferent), ("efferent", nat r.coupling.efferent),
    ("instability", .ratio r.coupling.instability)]

end CodeAtlas
