import CodeAtlas.Number
import CodeAtlas.Engine.Caller
import CodeAtlas.Engine.Memory
import CodeAtlas.Engine.Repository
import CodeAtlas.Extract.Parser
import CodeAtlas.Classify.Classifier
import CodeAtlas.Index.RunLock
import CodeAtlas.Index.Store

/-!
The engine: the projects with their files in memory, over the index that outlives it.
-/

namespace CodeAtlas

/-- Projects are held by their identifiers; `minted` counts the identifiers given to them. -/
structure Engine where
  ignore : IgnoreConfig
  parser : Parser
  index : Index
  projects : List Project
  memory : FileMemory
  locks : LockTable
  lastUpdate : Instant
  generation : Nat
  minted : Nat

/-- How often each name occurs, in the order of first occurrence. -/
def tally (names : List String) : List (String × Nat) :=
  names.eraseDups.map fun n => (n, names.count n)

structure EngineFigures where
  projects : Nat
  files : Nat
  lines : Int
  symbols : Nat
  references : Nat
  languages : List (String × Nat)
  fileTypes : List (String × Nat)
  lastUpdate : Instant
  deriving DecidableEq, Repr, Inhabited

namespace Engine

def project? (e : Engine) (id : String) : Option Project := e.projects.find? (·.id == id)

def setProject (projects : List Project) (p : Project) : List Project :=
  if projects.any (·.id == p.id) then projects.map fun q => if q.id == p.id then p else q
  else projects ++ [p]

/-- Looks at the figures of the index.  A time of the last update that cannot be told is not taken
over; another is kept as nanoseconds. -/
def refresh (e : Engine) (live : Bool) : Engine :=
  match e.index.figures live with
  | .ok figures =>
      if figures.lastUpdate.isZero then e
      else { e with lastUpdate := .ofEpochNanos figures.lastUpdate.epochNanos }
  | .error _ => e

def restoredMemory (index : Index) (live : Bool) (projects : List Project) :
    Except Fault FileMemory :=
  projects.foldlM (fun memory p => do
    let documents ← inContext s!"project {p.name}" (index.documents live p.id)
    return memory.setAll (documents.map FileEntry.ofDocument)) .empty

def restore (ignore : IgnoreConfig) (parser : Parser) (index : Index) (minted : Nat) (live : Bool) :
    Except Fault Engine := do
  let projects ← inContext "failed to restore index state" (index.projects live)
  let memory ← inContext "failed to restore index state" (restoredMemory index live projects)
  return ({ ignore, parser, index, projects, memory, locks := .empty, lastUpdate := .zero
            generation := 0, minted } : Engine).refresh live

def checkRoot (tree : FileTree) (root : String) : Except Fault Unit :=
  match tree.look true root with
  | .ok .directory => .ok ()
  | .ok _ => .error (.of (.unreadableRoot root))
  | .error fault => .error (.of (.unreadableRoot (root ++ ": " ++ fault.message "stat" root)))

def newProject (tree : FileTree) (now : Instant) (id name root description : String) : Project :=
  let repository := detectRepository tree root
  { id, name := if name == "" then Path.base root else name, rootPath := root, description
    indexed := false, lastIndexed := .zero
    repositoryKind := repository.kind.name
    branch := textOfGlyphs repository.branch
    remoteUrl := textOfGlyphs repository.remoteUrl
    createdAt := now }

/-- Registers a source tree and gives its identifier; a root that is known keeps the one it has. -/
def addProject (e : Engine) (tree : FileTree) (live : Bool) (now : Instant)
    (name path description : String) : Engine × Except Fault String :=
  let root := tree.absolute path
  match checkRoot tree root with
  | .error f => (e, .error f)
  | .ok () =>
      match e.projects.find? (·.rootPath == root) with
      | some known => (e, .ok known.id)
      | none =>
          let e := { e with minted := e.minted + 1 }
          let p := newProject tree now (Uuid.ofCounter e.minted).toString name root description
          match e.index.createProject live now p with
          | .ok index => ({ e with index, projects := setProject e.projects p }, .ok p.id)
          | .error f =>
              match f.cause, e.index.projectByPath live root with
              | .alreadyExists, .ok known =>
                  ({ e with projects := setProject e.projects known }, .ok known.id)
              | _, _ => (e, .error (f.within "failed to register project"))

def getProject (e : Engine) (id : String) : Except Fault Project :=
  match e.project? id with
  | some p => .ok p
  | none => .error (.of (.projectNotFound id))

/-- All projects, the oldest first. -/
def allProjects (e : Engine) : List Project :=
  e.projects.mergeSort fun a b =>
    if a.createdAt.same b.createdAt then a.id ≤ b.id else a.createdAt.before b.createdAt

def projectFiles (e : Engine) (projectId : String) : List FileEntry :=
  e.memory.ofProject projectId

def figures (e : Engine) : EngineFigures where
  projects := e.projects.length
  files := e.memory.files.entries.length
  lines := wrap64 (signedTotal (e.memory.files.values.map (·.lineCount)))
  symbols := total (e.memory.symbols.values.map (·.length))
  references := total (e.memory.references.values.map (·.length))
  languages := tally (e.memory.files.values.map (·.language.name))
  fileTypes := tally (e.memory.files.values.map (·.fileType.name))
  lastUpdate := e.lastUpdate

/-- The graph of a project.  Files without usages have only the edges of their structure. -/
def graph (e : Engine) (projectId : String) : Except Fault SymbolGraph :=
  match e.project? projectId with
  | none => .error (.of (.projectNotFound projectId))
  | some _ => .ok (SymbolGraph.build ((e.projectFiles projectId).map (FileEntry.record projectId)))

def locked {α : Type} (e : Engine) (projectId : String)
    (call : Engine → Engine × Except Fault α) : Engine × Except Fault α :=
  match e.locks.acquire projectId with
  | (_, false) => (e, .error (.of .indexingInProgress))
  | (locks, true) =>
      let (e, result) := call { e with locks }
      ({ e with locks := e.locks.release projectId }, result)

def openWriter (index : Index) (caller : Caller) : Except Fault Index :=
  inContext "failed to open index writer" <|
    if caller.waits .openWriter then index.openWriter else .error (.of .canceled)

def discard (index : Index) : Index := { index with queue := none }

/-- Forgets a project with its files, also what the parser remembers of them. -/
def forget (e : Engine) (projectId : String) : Engine :=
  { e with
    parser := (e.memory.idsOf projectId).foldl .invalidate e.parser
    memory := e.memory.drop projectId
    projects := e.projects.filter (·.id != projectId) }

/-- Removes a project whose lock is held: first its documents, then its row. -/
def removeHeld (e : Engine) (caller : Caller) (now : Instant) (projectId : String) :
    Engine × Except Fault Unit :=
  match e.project? projectId with
  | none => (e, .error (.of (.projectNotFound projectId)))
  | some _ =>
      match openWriter e.index caller with
      | .error f => (e, .error f)
      | .ok index =>
          if !caller.waits .clear then (e, .error (.of .canceled))
          else
            match index.submit (.deleteProjectDocuments projectId) with
            | .error f => ({ e with index := discard index }, .error f)
            | .ok index =>
                match index.commitUnless caller.refusal now with
                | (index, .error f) =>
                    ({ e with index }, .error (f.within "failed to remove project documents"))
                | (index, .ok ()) =>
                    let finish (index : Index) : Engine :=
                      ({ (forget { e with index } projectId) with
                          generation := e.generation + 1
                          lastUpdate := now } : Engine).refresh (caller.waits .figures)
                    match index.deleteProject (caller.waits .deleteProject) projectId with
                    | .ok index => (finish index, .ok ())
                    | .error f =>
                        if f.cause == .notFound then (finish index, .ok ())
                        else ({ e with index }, .error (f.within "failed to remove project"))

def removeProject (e : Engine) (caller : Caller) (now : Instant) (projectId : String) :
    Engine × Except Fault Unit :=
  e.locked projectId fun e => e.removeHeld caller now projectId

end Engine

end CodeAtlas
