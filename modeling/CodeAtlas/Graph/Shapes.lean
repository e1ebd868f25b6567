import CodeAtlas.Graph.Analysis
import CodeAtlas.Json.Shapes

/-!
The JSON shapes of graphs.
-/

namespace CodeAtlas

open Json (int nat ratio strings)

def NodeFigures.toJson (f : NodeFigures) : Json :=
  .object ([("complexity", int f.complexity), ("fan_in", int f.fanIn), ("fan_out", int f.fanOut),
    ("centrality", ratio f.centrality), ("stability", ratio f.stability)] ++
    if f.tags.isEmpty then [] else [("tags", strings f.tags)])

def Node.toJson (n : Node) : Json :=
  .object ([("symbol_id", .string n.symbolId), ("file_id", .string n.fileId),
    ("project_id", .string n.projectId), ("name", .string n.name), ("kind", .string n.kind.name),
    ("fqn", .string n.fullName)] ++
    (if n.scope.isEmpty then [] else [("scope", strings n.scope)]) ++
    [("location", n.location.toJson), ("metadata", n.figures.toJson)])

def EdgeContext.toJson (c : EdgeContext) : Json :=
  .object [("call_count", int c.callCount), ("conditional", .bool c.conditional),
    ("in_loop", .bool c.inLoop), ("access", .string c.access.name)]

def Edge.toJson (e : Edge) : Json :=
  .object [("id", .string e.id), ("from", .string e.source), ("to", .string e.target),
    ("kind", .string e.kind.name), ("strength", ratio e.strength),
    ("locations", if e.locations.isEmpty then .null else .array (e.locations.map Location.toJson)),
    ("context", e.context.toJson)]

def Coupling.toJson (c : Coupling) : Json :=
  .object [("afferent", nat c.afferent), ("efferent", nat c.efferent),
    ("instability", ratio c.instability)]

def Analysis.toJson (a : Analysis) : Json :=
  .object [("total_nodes", nat a.totalNodes), ("total_edges", nat a.totalEdges),
    ("cycles", .array (a.cycles.map strings)), ("layers", .array (a.layers.map strings)),
    ("coupling", .object (a.coupling.map fun (id, c) => (id, c.toJson)))]

end CodeAtlas
