import CodeAtlas.Cli.Command
import CodeAtlas.Cli.Completion
import CodeAtlas.Cli.Workspace
import CodeAtlas.Search.Request

/-!
What a command line asks for.
-/

namespace CodeAtlas

/-- A piece of work; projects are given by identifier, root or name. -/
inductive Task where
  | print (text : String)
  | tellVersion
  | serve
  | add (path name description : String) (thenIndex : Bool)
  | index (project : String) (isFresh : Bool)
  | remove (project : String)
  | projects
  | stats
  | search (project : String) (request : SearchRequest)
  | graph (project : String) (top : Int) (symbol : String)
  deriving DecidableEq, Repr

namespace Task

def versionLine : String := "codeindex version dev\n"

/-- The search that flags describe.  A kind of symbols or of references implies the mode. -/
def searchRequest (p : ParsedFlags) : Except String SearchRequest := do
  let kind := p.text "kind"
  let refKind := p.text "ref-kind"
  if kind != "" then discard (SymbolKind.parse kind)
  if refKind != "" then discard (ReferenceKind.parse refKind)
  return { SearchRequest.plain (p.arguments.head?.getD "") with
    mode :=
      if p.isOn "references" || refKind != "" then .reference
      else if p.isOn "symbols" || kind != "" then .symbol
      else .text
    language := p.text "language"
    pathGlob := p.text "glob"
    kind
    refKind
    limit := p.integer "limit" 10
    contextLines := p.integer "context" 2 }

def describes (c : Command) (env : Environment) : Bool :=
  let wish := env.get "CODEINDEX_COMPLETION_DESCRIPTIONS"
  c != .completeNames && !ParsedFlags.noTexts.contains wish

def ofCommand (c : Command) (p : ParsedFlags) (env : Environment) : Except String Task :=
  let subject := p.arguments.head?.getD ""
  match c.name with
  | "serve" => .ok .serve
  | "add" => .ok (.add subject (p.text "name") (p.text "description") (p.isOn "index"))
  | "index" => .ok (.index subject false)
  | "reindex" => .ok (.index subject true)
  | "remove" => .ok (.remove subject)
  | "projects" => .ok .projects
  | "stats" => .ok .stats
  | "search" => (searchRequest p).map (.search (p.text "project"))
  | "graph" => .ok (.graph subject (p.integer "top" 10) (p.text "symbol"))
  | "version" => .ok .tellVersion
  | "help" => .ok (.print (Command.helpOn p.arguments))
  | "__complete" | "__completeNoDesc" =>
      .ok (.print (Completion.answer (describes c env) p.arguments))
  | _ => .ok (.print c.helpText)

def refuse : Option String → Except String Unit
  | some text => .error text
  | none => .ok ()

/-- The work that a command line asks for, with its settings.  Texts that are only printed need no
settings. -/
def read (usual : OutputFormat) (words : List String) (env : Environment) :
    Except String (Task × Option Settings) := do
  let (c, rest) ← Command.find words
  let p ← if c.readsFlags then Flag.parse c.allFlags rest else .ok ⟨[], rest⟩
  if p.isOn "help" then return (.print c.helpText, none)
  if c.isRoot && p.isOn "version" then return (.print versionLine, none)
  if !c.runs then return (.print c.helpText, none)
  refuse (c.complaint? p.arguments)
  let settings ← Settings.resolve usual p env
  refuse (c.conflict? p)
  return (← ofCommand c p env, some settings)

end Task

end CodeAtlas
