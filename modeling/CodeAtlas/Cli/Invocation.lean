import CodeAtlas.Cli.Report
import CodeAtlas.Cli.Task
import CodeAtlas.Cli.Workspace
import CodeAtlas.Tools.Messages

/-!
Invocations of the program: each reads a command line, opens the index, does its work and leaves the
index behind.
-/

namespace CodeAtlas

open Json (nat strings)

structure Invocation where
  words : List String
  environment : Environment
  input : List String
  usual : OutputFormat
  caller : Caller
  now : Instant

/-- What the program prints.  A text is told when the circumstances are known. -/
inductive Output where
  | text (tell : Circumstances → String)
  | json (value : Json)
  | messages (replies : List Json)

/-- The project that a text means: its identifier, its root or its name. -/
def Engine.resolve (e : Engine) (tree : FileTree) (reference : String) : Except Fault Project :=
  match e.project? reference, e.allProjects.find? (·.rootPath == tree.absolute reference) with
  | some p, _ => .ok p
  | none, some p => .ok p
  | none, none =>
      match e.allProjects.filter (·.name == reference) with
      | [] => .error (.of (.projectNotFound reference))
      | [p] => .ok p
      | _ => .error (.of (.ambiguousProject reference))

namespace Invocation

def orNull (items : List Json) : Json := if items.isEmpty then .null else .array items

/-- The lists that a mode of search does not fill are missing. -/
def responseJson (r : SearchResponse) : Json :=
  .object [
    ("Hits", if r.mode matches .symbol | .reference then .null
      else .array (r.hits.map SearchHit.toJson)),
    ("Symbols", if r.mode matches .symbol then .array (r.symbols.map SymbolHit.toJson) else .null),
    ("References", if r.mode matches .reference then .array (r.references.map ReferenceHit.toJson)
      else .null),
    ("TotalResults", nat r.total), ("SearchMode", .string r.mode.name), ("CacheHit", .bool false)]

def graphJson (r : GraphReport) : Json :=
  .object [("project_id", .string r.projectId), ("total_nodes", nat r.totalNodes),
    ("total_edges", nat r.totalEdges), ("dropped_edges", nat r.dropped),
    ("cycles", .array (r.cycles.map strings)), ("layers", .array (r.layers.map strings)),
    ("most_coupled", .array (r.mostCoupled.map CouplingRow.toJson))]

def symbolJson (r : SymbolReport) : Json :=
  .object [("symbol", r.node.toJson), ("dependencies", orNull (r.dependencies.map Edge.toJson)),
    ("dependents", orNull (r.dependents.map Edge.toJson))]

def versionText (about : Circumstances) : String :=
  Report.lines ["codeindex dev", "Build Time: unknown", "Build Mode: purego",
    "SQLite Driver: sqlite", "Go: " ++ about.platform]

def outputIn (format : OutputFormat) (json : Json) (tell : Circumstances → String) : Output :=
  match format with
  | .json => .json json
  | .human => .text tell

/-- A call of the engine with the file tree it sees, which depends on what it has written. -/
abbrev Call := Engine → (Engine → FileTree) → Engine × Except Fault Output

def withProject (reference : String) (call : Project → Call) : Call := fun e tree =>
  match e.resolve (tree e) reference with
  | .error f => (e, .error f)
  | .ok p => call p e tree

def add (i : Invocation) (format : OutputFormat) (path name description : String)
    (thenIndex : Bool) : Call := fun e tree =>
  let (e, added) :=
    e.addProject (tree e) (i.caller.waits .register) i.now name path description
  match added >>= e.getProject with
  | .error f => (e, .error f)
  | .ok p =>
      let finish (stats : Json) (tell : Circumstances → String) : Output :=
        outputIn format (.object [("project", p.toJson), ("stats", stats)])
          fun about => Report.registered p ++ tell about
      if thenIndex then
        let (e, r) := e.indexProject (tree e) i.caller i.now p.id
        (e, r.map fun r => finish r.toJson (Report.run p.name r))
      else (e, .ok (finish .null fun _ => ""))

def index (i : Invocation) (format : OutputFormat) (isFresh : Bool) (p : Project) : Call :=
  fun e tree =>
    let run := if isFresh then e.reindexProject else e.indexProject
    let (e, r) := run (tree e) i.caller i.now p.id
    (e, r.map fun r => outputIn format r.toJson (Report.run p.name r))

def remove (i : Invocation) (format : OutputFormat) (p : Project) : Call := fun e _ =>
  let (e, r) := e.removeProject i.caller i.now p.id
  (e, r.map fun _ => outputIn format
    (.object [("project_id", .string p.id), ("removed", .bool true)]) fun _ => Report.removed p)

def projects (format : OutputFormat) : Call := fun e _ =>
  let ps := e.allProjects
  (e, .ok (outputIn format (.array (ps.map Project.toJson)) (Report.projects ps)))

def stats (format : OutputFormat) : Call := fun e _ =>
  (e, .ok (outputIn format e.figures.toJson (Report.figures e.figures)))

def search (i : Invocation) (format : OutputFormat) (request : SearchRequest) : Call := fun e _ =>
  let (_, r) := Searcher.new.search e.index (i.caller.waits .search) i.now e.generation request
  (e, r.map fun (r, _) => outputIn format (responseJson r) (Report.found r))

/-- Usages are not stored, so the project is indexed before its graph is built. -/
def graph (i : Invocation) (format : OutputFormat) (top : Int) (symbol : String) (p : Project) :
    Call := fun e tree =>
  if !p.indexed then
    (e, .error (.of (.other
      s!"project {p.name} is not indexed; run \"codeindex index {p.name}\" first")))
  else
    let (e, run) := e.indexProject (tree e) i.caller i.now p.id
    (e, do
      discard run
      let g ← e.graph p.id
      if symbol == "" then
        let report := GraphReport.of p.id g top
        return outputIn format (graphJson report) fun _ => Report.graph p.name report
      let reports := SymbolReport.all g symbol
      if reports.isEmpty then
        throw (.of (.other ("no symbol named " ++ quoted symbol ++ " in " ++ p.name)))
      return outputIn format (.array (reports.map symbolJson)) fun _ =>
        String.join (reports.map (Report.symbol g)))

def serve (i : Invocation) : Call := fun e tree =>
  let (s, replies) := Message.takeAll (fun s => ⟨tree s.engine, i.now⟩) (.new e) i.input
  (s.engine, .ok (.messages replies))

def callOf (i : Invocation) (format : OutputFormat) : Task → Output ⊕ Call
  | .print text => .inl (.text fun _ => text)
  | .tellVersion => .inl (.text versionText)
  | .serve => .inr i.serve
  | .add path name description thenIndex => .inr (i.add format path name description thenIndex)
  | .index p isFresh => .inr (withProject p (i.index format isFresh))
  | .remove p => .inr (withProject p (i.remove format))
  | .projects => .inr (projects format)
  | .stats => .inr (stats format)
  | .search "" request => .inr (i.search format request)
  | .search p request =>
      .inr (withProject p fun p => i.search format { request with projectId := p.id })
  | .graph p top symbol => .inr (withProject p (i.graph format top symbol))

def openEngine (w : Workspace) (live : Bool) (now : Instant) (path : String) :
    Workspace × Except Fault (OpenIndex × Engine) :=
  let (w, opened) := w.openIndex now path
  (w, do
    let opened ← opened
    return (opened, ← Engine.restore .standard (.new .standard none) opened.index w.minted live))

def treeFor (w : Workspace) (now : Instant) (opened : OpenIndex) (start : Engine) (e : Engine) :
    FileTree :=
  w.treeInUse now opened.place (opened.migrated || e.generation > 0 || e.minted > start.minted)

/-- Makes a call on the index that the settings name.  What it does to the index stays, whatever its
outcome. -/
def onIndex (i : Invocation) (w : Workspace) (path : String) (call : Call) :
    Workspace × Except Fault Output :=
  match openEngine w (i.caller.waits .restore) i.now path with
  | (w, .error f) => (w, .error f)
  | (w, .ok (opened, start)) =>
      let (e, result) := call start (treeFor w i.now opened start)
      (w.adopt opened.place e, result)

def run (i : Invocation) (w : Workspace) : Workspace × Except Fault Output :=
  match Task.read i.usual i.words i.environment with
  | .error text => (w, .error (.of (.other text)))
  | .ok (task, settings) =>
      match i.callOf ((settings.map (·.format)).getD i.usual) task, settings with
      | .inl output, _ => (w, .ok output)
      | .inr _, none => (w, .ok (.text fun _ => ""))
      | .inr call, some settings => i.onIndex w settings.database call

end Invocation

end CodeAtlas
