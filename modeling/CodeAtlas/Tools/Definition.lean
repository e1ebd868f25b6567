import CodeAtlas.Json.Basic
import CodeAtlas.Model.Kind

/-!
How tools are described to clients.
-/

namespace CodeAtlas

inductive ParameterType where
  | text
  | oneOf (names : List String)
  | integer (otherwise low high : Int)
  deriving DecidableEq, Repr

structure Parameter where
  name : String
  description : String
  type : ParameterType
  deriving DecidableEq, Repr

namespace Parameter

def toJson (p : Parameter) : Json :=
  .object (match p.type with
    | .text => [("type", .string "string"), ("description", .string p.description)]
    | .oneOf names => [("type", .string "string"), ("description", .string p.description),
        ("enum", .strings names)]
    | .integer otherwise low high => [("type", .string "integer"),
        ("description", .string p.description), ("default", .int otherwise), ("minimum", .int low),
        ("maximum", .int high)])

def project (description : String) : Parameter := ⟨"project_id", description, .text⟩

def limit : Parameter :=
  ⟨"limit", "Maximum number of results to return (1-100)", .integer 10 1 100⟩

end Parameter

structure ToolDefinition where
  name : String
  description : String
  parameters : List Parameter
  required : List String
  deriving DecidableEq, Repr

namespace ToolDefinition

def toJson (t : ToolDefinition) : Json :=
  .object [("annotations", .object []), ("name", .string t.name),
    ("description", .string t.description),
    ("inputSchema", .object ([("type", .string "object")] ++
      (if t.parameters.isEmpty then []
        else [("properties", .object (t.parameters.map fun p => (p.name, p.toJson)))]) ++
      if t.required.isEmpty then [] else [("required", .strings t.required)]))]

def addProject : ToolDefinition where
  name := "add_project"
  description := "Register a source tree so it can be indexed. Returns the project id; " ++
    "registering the same root twice returns the existing id"
  parameters := [⟨"path", "Absolute path to the project root directory", .text⟩,
    ⟨"name", "Display name (defaults to the directory name)", .text⟩,
    ⟨"description", "Optional free-form description", .text⟩]
  required := ["path"]

def indexProject : ToolDefinition where
  name := "index_project"
  description := "Index a registered project incrementally; " ++
    "files whose checksum is unchanged are reused"
  parameters := [.project "Id returned by add_project"]
  required := ["project_id"]

def reindexProject : ToolDefinition where
  name := "reindex_project"
  description := "Discard everything indexed for a project and rebuild it from scratch"
  parameters := [.project "Id returned by add_project"]
  required := ["project_id"]

def removeProject : ToolDefinition where
  name := "remove_project"
  description := "Remove a project and everything indexed for it"
  parameters := [.project "Id of the project to remove"]
  required := ["project_id"]

def listProjects : ToolDefinition where
  name := "list_projects"
  description := "List registered projects with their indexing state and repository metadata"
  parameters := []
  required := []

def getIndexStats : ToolDefinition where
  name := "get_index_stats"
  description := "Report totals across all projects: files, lines, symbols, references, " ++
    "languages and index size"
  parameters := []
  required := []

def searchCode : ToolDefinition where
  name := "search_code"
  description := "Full-text search over indexed files, ranked by BM25, " ++
    "with a highlighted snippet around the best matching line"
  parameters := [⟨"query", "Search terms; a trailing * matches a prefix", .text⟩,
    .project "Restrict results to one project",
    ⟨"language", "Restrict results to one language (e.g. go, rust, python)", .text⟩,
    ⟨"path_glob", "Glob over project-relative paths (e.g. 'internal/*')", .text⟩, .limit,
    ⟨"context_lines", "Lines of context around the matching line", .integer 2 0 20⟩]
  required := ["query"]

def searchSymbols : ToolDefinition where
  name := "search_symbols"
  description := "Find declarations by name, signature or scope, optionally filtered by kind"
  parameters := [⟨"query", "Symbol name or fragment; may be empty when kind is given", .text⟩,
    ⟨"kind", "Restrict results to one symbol kind", .oneOf (SymbolKind.all.map SymbolKind.name)⟩,
    .project "Restrict results to one project", .limit]
  required := []

def findReferences : ToolDefinition where
  name := "find_references"
  description := "List where symbols with an exact name are used, " ++
    "with the line of each use and the symbol it resolves to"
  parameters := [⟨"name", "Exact symbol name", .text⟩,
    ⟨"kind", "Restrict results to one reference kind",
      .oneOf (ReferenceKind.all.map ReferenceKind.name)⟩,
    .project "Restrict results to one project", .limit]
  required := ["name"]

def analyzeDependencies : ToolDefinition where
  name := "analyze_dependencies"
  description := "Build the symbol graph of a project and report cycles, dependency layers " ++
    "and the most coupled symbols"
  parameters := [.project "Project to analyze",
    ⟨"top", "Number of most coupled symbols to report", .integer 10 1 100⟩]
  required := ["project_id"]

def symbolDependencies : ToolDefinition where
  name := "symbol_dependencies"
  description := "List what a symbol depends on and what depends on it"
  parameters := [.project "Project the symbol belongs to",
    ⟨"symbol_id", "Symbol id, as returned by search_symbols", .text⟩,
    ⟨"name", "Symbol name or qualified name, used when symbol_id is not given", .text⟩]
  required := ["project_id"]

def all : List ToolDefinition :=
  [addProject, indexProject, reindexProject, removeProject, listProjects, getIndexStats, searchCode,
    searchSymbols, findReferences, analyzeDependencies, symbolDependencies]

end ToolDefinition

end CodeAtlas
