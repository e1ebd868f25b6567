import CodeAtlas.Json.Shapes
import CodeAtlas.Model.Hit

/-!
The JSON shapes of what searches find.
-/

namespace CodeAtlas

open Json (int)

/-- The line is left out when there is none. -/
def SearchHit.toJson (h : SearchHit) : Json :=
  .object ([("rank", int h.rank), ("score", .real h.score), ("file_id", .string h.fileId),
    ("project_id", .string h.projectId), ("path", .string h.path),
    ("language", .string h.language.name)] ++
    (if h.line == 0 then [] else [("line", int h.line)]) ++ optionalText "snippet" h.snippet)

def SymbolHit.toJson (h : SymbolHit) : Json :=
  .object [("rank", int h.rank), ("score", .real h.score), ("project_id", .string h.projectId),
    ("path", .string h.path), ("symbol", h.symbol.toJson)]

def ReferenceHit.toJson (h : ReferenceHit) : Json :=
  .object [("rank", int h.rank), ("project_id", .string h.projectId), ("path", .string h.path),
    ("reference", h.reference.toJson), ("symbol", h.symbol.toJson)]

end CodeAtlas
