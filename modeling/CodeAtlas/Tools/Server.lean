import CodeAtlas.Engine.Shapes
import CodeAtlas.Json.Basic
import CodeAtlas.Number
import CodeAtlas.Text.Decimal
import CodeAtlas.Text.Integer

/-!
The arguments of tools, and what is said when they do not fit.
-/

namespace CodeAtlas

structure ToolFault where
  code : Int
  message : String
  data : Json
  deriving Inhabited

namespace ToolFault

def invalidParams : Int := -32602

def internal : Int := -32603

def projectNotFound : Int := -32001

def indexingInProgress : Int := -32002

def notIndexed : Int := -32003

def emptyQuery : Int := -32004

def missing (code : Int) (message name : String) : ToolFault :=
  ⟨code, message, .object [("param", .string name), ("reason", .string "missing or empty")]⟩

def missingParam (name : String) : ToolFault :=
  missing invalidParams (name ++ " parameter is required") name

def noQuery (name : String) : ToolFault :=
  missing emptyQuery (name ++ " parameter is required and cannot be empty") name

def failed (message reason : String) : ToolFault :=
  ⟨internal, message, .object [("error", .string reason)]⟩

def text (f : ToolFault) : String := "MCP error " ++ toString f.code ++ ": " ++ f.message

end ToolFault

namespace Argument

def all (arguments : Json) : Except ToolFault Json :=
  match arguments with
  | .null => .ok (.object [])
  | .object fields => .ok (.object fields)
  | _ => .error ⟨ToolFault.invalidParams, "invalid arguments", .null⟩

/-- A text; anything else counts as none. -/
def text (arguments : Json) (name : String) : String := ((arguments.field name).asString?).getD ""

def required (arguments : Json) (name : String) : Except ToolFault String :=
  let value := text arguments name
  if value == "" then .error (.missingParam name) else .ok value

/-- The whole part of a number; one that is out of range becomes the least. -/
def wholePart (x : Float) : Int :=
  let q := ratOfFloat x
  let n := q.num.tdiv q.den
  if isSigned64 n then n else leastSigned

def integer? : Json → Option Int
  | .number literal => (doubleOfText? literal).map wholePart
  | .real x => some (wholePart x)
  | .bool b => some (if b then 1 else 0)
  | .string text => (readLooseInteger text).toOption
  | _ => none

/-- An integer between bounds; what is no integer counts as not given. -/
def bounded (arguments : Json) (name : String) (otherwise low high : Int) : Except ToolFault Int :=
  let value := (integer? (arguments.field name)).getD otherwise
  if value < low || value > high then
    .error ⟨ToolFault.invalidParams, s!"{name} must be between {low} and {high}",
      .object [("param", .string name), ("value", .int value)]⟩
  else .ok value

def kind (arguments : Json) (allowed : List String) : Except ToolFault String :=
  let value := text arguments "kind"
  if value == "" || allowed.contains value then .ok value
  else .error ⟨ToolFault.invalidParams, "invalid kind",
    .object [("param", .string "kind"), ("value", .string value), ("allowed", .strings allowed)]⟩

end Argument

end CodeAtlas

/-!
The tools that clients call.
-/

namespace CodeAtlas

open Json (int nat strings)

/-- An engine with the searcher of its clients. -/
structure Server where
  engine : Engine
  searcher : Searcher

/-- What a call can see of the world: the file tree and the time. -/
structure Surroundings where
  tree : FileTree
  now : Instant

namespace Server

def new (engine : Engine) : Server := ⟨engine, .new⟩

def projectFields (p : Project) : List (String × Json) :=
  [("id", .string p.id), ("name", .string p.name), ("root_path", .string p.rootPath),
    ("indexed", .bool p.indexed), ("repository_kind", .string p.repositoryKind),
    ("created_at", p.createdAt.toJson)] ++
    optionalText "description" p.description ++ optionalText "branch" p.branch ++
    optionalText "remote_url" p.remoteUrl ++
    if p.lastIndexed.isZero then [] else [("last_indexed", p.lastIndexed.toJson)]

def engineFault (message projectId : String) (f : Fault) : ToolFault :=
  let id := [("project_id", Json.string projectId)]
  match f.cause with
  | .projectNotFound _ => ⟨ToolFault.projectNotFound, "project not found", .object id⟩
  | .indexingInProgress => ⟨ToolFault.indexingInProgress, "indexing already in progress", .object id⟩
  | .unreadableRoot _ =>
      ⟨ToolFault.invalidParams, message, .object (id ++ [("reason", .string f.message)])⟩
  | _ => .failed message f.message

def searchFault (f : Fault) : ToolFault :=
  match f.cause with
  | .emptyQuery => .noQuery "query"
  | _ => .failed "search failed" f.message

def optionalProject (s : Server) (arguments : Json) : Except ToolFault String :=
  let id := Argument.text arguments "project_id"
  if id == "" then .ok ""
  else
    match s.engine.getProject id with
    | .ok _ => .ok id
    | .error f => .error (engineFault "failed to load project" id f)

def invalidPath (reason : String) : ToolFault :=
  ⟨ToolFault.invalidParams, "invalid path",
    .object [("param", .string "path"), ("reason", .string reason)]⟩

def addProject (s : Server) (around : Surroundings) (arguments : Json) :
    Server × Except ToolFault Json :=
  match Argument.required arguments "path" with
  | .error f => (s, .error f)
  | .ok path =>
      if !Path.isAbsolute path then (s, .error (invalidPath "path must be absolute"))
      else
        let (engine, added) := s.engine.addProject around.tree true around.now
          (Argument.text arguments "name") path (Argument.text arguments "description")
        let s := { s with engine }
        match added with
        | .error f =>
            match f.cause with
            | .unreadableRoot _ => (s, .error (invalidPath f.message))
            | _ => (s, .error (.failed "failed to add project" f.message))
        | .ok id =>
            match engine.getProject id with
            | .ok p => (s, .ok (.object (projectFields p ++ [("project_id", .string id)])))
            | .error f => (s, .error (.failed "failed to load project" f.message))

def maxErrors : Nat := 5

def runJson (r : RunFigures) : Json :=
  .object ([("indexed", .bool true), ("project_id", .string r.projectId), ("files", nat r.files),
    ("files_indexed", nat r.filesIndexed), ("files_unchanged", nat r.filesUnchanged),
    ("files_skipped", nat r.filesSkipped), ("files_failed", nat r.filesFailed),
    ("files_removed", nat r.filesRemoved), ("lines", int r.lines), ("symbols", nat r.symbols),
    ("references", nat r.references), ("languages", tallyJson r.languages)] ++
    (if r.errors.isEmpty then [] else [("errors", strings (r.errors.take maxErrors))]) ++
    if r.errors.length > maxErrors then [("error_count", nat r.errors.length)] else [])

def runProject (s : Server) (around : Surroundings) (isFresh : Bool) (arguments : Json) :
    Server × Except ToolFault Json :=
  match Argument.required arguments "project_id" with
  | .error f => (s, .error f)
  | .ok id =>
      let run := if isFresh then s.engine.reindexProject else s.engine.indexProject
      let (engine, result) := run around.tree .patient around.now id
      ({ s with engine }, (result.map runJson).mapError (engineFault "indexing failed" id))

def removeProject (s : Server) (around : Surroundings) (arguments : Json) :
    Server × Except ToolFault Json :=
  match Argument.required arguments "project_id" with
  | .error f => (s, .error f)
  | .ok id =>
      let (engine, result) := s.engine.removeProject .patient around.now id
      ({ s with engine },
        (result.map fun _ => .object [("removed", .bool true), ("project_id", .string id)]).mapError
          (engineFault "failed to remove project" id))

def listProjects (s : Server) : Json :=
  let projects := s.engine.allProjects
  .object [("count", nat projects.length),
    ("projects", .array (projects.map fun p => .object (projectFields p)))]

def indexFigures (s : Server) : Json := s.engine.figures.toJson

def search (s : Server) (around : Surroundings) (request : SearchRequest)
    (shape : SearchResponse → Bool → Json) : Server × Except ToolFault Json :=
  let (searcher, result) :=
    s.searcher.search s.engine.index true around.now s.engine.generation request
  ({ s with searcher },
    (result.map fun (response, kept) => shape response kept).mapError searchFault)

def limit (arguments : Json) : Except ToolFault Int :=
  Argument.bounded arguments "limit" SearchRequest.defaultLimit 1 SearchRequest.maxLimit

def codeRequest (s : Server) (arguments : Json) : Except ToolFault SearchRequest := do
  let query := Argument.text arguments "query"
  if query == "" then throw (.noQuery "query")
  let limit ← limit arguments
  let contextLines ← Argument.bounded arguments "context_lines" 2 0 20
  let projectId ← s.optionalProject arguments
  return { SearchRequest.plain query with
    projectId, limit, contextLines, useCache := true
    language := Argument.text arguments "language"
    pathGlob := Argument.text arguments "path_glob" }

def symbolRequest (s : Server) (arguments : Json) : Except ToolFault SearchRequest := do
  let kind ← Argument.kind arguments (SymbolKind.all.map SymbolKind.name)
  let limit ← limit arguments
  let projectId ← s.optionalProject arguments
  return { SearchRequest.plain (Argument.text arguments "query") with
    mode := .symbol, kind, projectId, limit, contextLines := 0, useCache := true }

def referenceRequest (s : Server) (arguments : Json) : Except ToolFault SearchRequest := do
  let name := trim (Argument.text arguments "name")
  if name == "" then throw (.noQuery "name")
  let refKind ← Argument.kind arguments (ReferenceKind.all.map ReferenceKind.name)
  let limit ← limit arguments
  let projectId ← s.optionalProject arguments
  return { SearchRequest.plain name with
    mode := .reference, refKind, projectId, limit, contextLines := 0, useCache := true }

def resultJson (response : SearchResponse) (kept : Bool) (results : List Json) :
    List (String × Json) :=
  [("total_results", nat response.total), ("cache_hit", .bool kept), ("results", .array results)]

def searchCode (s : Server) (around : Surroundings) (arguments : Json) :
    Server × Except ToolFault Json :=
  match s.codeRequest arguments with
  | .error f => (s, .error f)
  | .ok request => s.search around request fun r kept =>
      .object ([("query", .string request.query)] ++ resultJson r kept (r.hits.map SearchHit.toJson))

def searchSymbols (s : Server) (around : Surroundings) (arguments : Json) :
    Server × Except ToolFault Json :=
  match s.symbolRequest arguments with
  | .error f => (s, .error f)
  | .ok request => s.search around request fun r kept =>
      .object ([("query", .string request.query), ("kind", .string request.kind)] ++
        resultJson r kept (r.symbols.map SymbolHit.toJson))

def findReferences (s : Server) (around : Surroundings) (arguments : Json) :
    Server × Except ToolFault Json :=
  match s.referenceRequest arguments with
  | .error f => (s, .error f)
  | .ok request => s.search around request fun r kept =>
      .object ([("name", .string request.query), ("kind", .string request.refKind)] ++
        resultJson r kept (r.references.map ReferenceHit.toJson))

def indexedGraph (s : Server) (projectId : String) : Except ToolFault SymbolGraph := do
  let project ← (s.engine.getProject projectId).mapError
    (engineFault "failed to load project" projectId)
  if !project.indexed then
    throw ⟨ToolFault.notIndexed, "project not indexed",
      .object [("project_id", .string projectId),
        ("message", .string "Use index_project to index this project first.")]⟩
  (s.engine.graph projectId).mapError (engineFault "failed to build graph" projectId)

def analyzeDependencies (s : Server) (arguments : Json) : Except ToolFault Json := do
  let projectId ← Argument.required arguments "project_id"
  let top ← Argument.bounded arguments "top" 10 1 SearchRequest.maxLimit
  let graph ← s.indexedGraph projectId
  let analysis := graph.analyze
  let names (ids : List String) : Json := strings (ids.map graph.nameOf)
  return .object [("project_id", .string projectId), ("total_nodes", nat analysis.totalNodes),
    ("total_edges", nat analysis.totalEdges), ("dropped_edges", nat graph.dropped),
    ("cycles", .array (analysis.cycles.map names)),
    ("layers", .array (analysis.layers.mapIdx fun i layer => .object [("layer", nat i),
      ("size", nat layer.length), ("symbols", names layer)])),
    ("most_coupled",
      .array ((graph.mostCoupled analysis.coupling top).map CouplingRow.toJson))]

def maxTargets : Nat := 10

def targets (graph : SymbolGraph) (symbolId name : String) : List Node :=
  if symbolId != "" then (graph.node? symbolId).toList
  else (graph.nodesNamed name).take maxTargets

def nodeJson (n : Node) : Json :=
  .object [("symbol_id", .string n.symbolId), ("name", .string n.name), ("fqn", .string n.fullName),
    ("kind", .string n.kind.name), ("file_id", .string n.fileId),
    ("line", int n.location.first.line), ("fan_in", int n.figures.fanIn),
    ("fan_out", int n.figures.fanOut), ("complexity", int n.figures.complexity)]

def edgeJson (graph : SymbolGraph) (far : String) (e : Edge) : Json :=
  .object ([("symbol_id", .string far), ("kind", .string e.kind.name),
    ("strength", .ratio e.strength), ("count", nat e.locations.length)] ++
    match graph.node? far with
    | some n => [("name", .string n.fullName), ("symbol_kind", .string n.kind.name)]
    | none => [])

def symbolDependencies (s : Server) (arguments : Json) : Except ToolFault Json := do
  let projectId ← Argument.required arguments "project_id"
  let symbolId := Argument.text arguments "symbol_id"
  let name := Argument.text arguments "name"
  if symbolId == "" && name == "" then
    throw (.missing ToolFault.invalidParams "symbol_id or name is required" "symbol_id")
  let graph ← s.indexedGraph projectId
  let nodes := targets graph symbolId name
  if nodes.isEmpty then
    throw ⟨ToolFault.invalidParams, "symbol not found",
      .object [("symbol_id", .string symbolId), ("name", .string name)]⟩
  return .object [("project_id", .string projectId), ("matches", nat nodes.length),
    ("symbols", .array (nodes.map fun n => .object [("symbol", nodeJson n),
      ("dependencies",
        .array ((graph.dependencies n.symbolId).map fun e => edgeJson graph e.target e)),
      ("dependents",
        .array ((graph.dependents n.symbolId).map fun e => edgeJson graph e.source e))]))]

def call? (s : Server) (around : Surroundings) (tool : String) (arguments : Json) :
    Option (Server × Except ToolFault Json) :=
  let checked (run : Json → Server × Except ToolFault Json) : Server × Except ToolFault Json :=
    match Argument.all arguments with
    | .ok arguments => run arguments
    | .error f => (s, .error f)
  match tool with
  | "add_project" => some (checked (s.addProject around))
  | "index_project" => some (checked (s.runProject around false))
  | "reindex_project" => some (checked (s.runProject around true))
  | "remove_project" => some (checked (s.removeProject around))
  | "list_projects" => some (s, .ok s.listProjects)
  | "get_index_stats" => some (s, .ok s.indexFigures)
  | "search_code" => some (checked (s.searchCode around))
  | "search_symbols" => some (checked (s.searchSymbols around))
  | "find_references" => some (checked (s.findReferences around))
  | "analyze_dependencies" => some (checked fun a => (s, s.analyzeDependencies a))
  | "symbol_dependencies" => some (checked fun a => (s, s.symbolDependencies a))
  | _ => none

end Server

end CodeAtlas
