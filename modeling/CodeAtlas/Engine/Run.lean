import CodeAtlas.Number
import CodeAtlas.Classify.ConfigFile
import CodeAtlas.Classify.Content
import CodeAtlas.Engine.Basic

/-!
Indexing runs.  A run looks for the files of a project, reads those that have changed, and hands all
its changes to the index at once.  Only then the engine takes them over.
-/

namespace CodeAtlas

/-- A file that was found.  `untold` and `unread` are the messages of a system that refuses to tell of
it or to give its content. -/
structure Candidate where
  path : String
  relativePath : String
  language : Language
  fileType : FileType
  content : List UInt8
  modified : Instant
  untold : Option String
  unread : Option String
  deriving Inhabited

/-- The outcome of a run.  The totals are over all files that the project has afterwards. -/
structure RunFigures where
  projectId : String
  files : Nat
  filesIndexed : Nat
  filesUnchanged : Nat
  filesSkipped : Nat
  filesFailed : Nat
  filesRemoved : Nat
  lines : Int
  symbols : Nat
  references : Nat
  languages : List (String × Nat)
  fileTypes : List (String × Nat)
  errors : List String
  deriving DecidableEq, Repr, Inhabited

/-- What is fixed for a run.  A fresh one starts without the documents of earlier runs. -/
structure Run where
  project : Project
  isFresh : Bool
  ignore : IgnoreConfig
  started : Instant
  prior : List FileEntry

structure RunState where
  index : Index
  parser : Parser
  staged : List FileEntry
  indexed : Nat
  unchanged : Nat
  skipped : Nat
  failed : Nat
  errors : List String

namespace Run

/-- The lines of an ignore file.  A line that is no text can be no rule. -/
def ignoreLines (bytes : List UInt8) : List String :=
  (splitOn (·.char == '\n') (glyphsOfBytes bytes)).filterMap fun line =>
    if line.contains .stray then none else some (textOfGlyphs line)

def loadRules (tree : FileTree) (base : IgnoreConfig) (root : String) :
    Except Fault (IgnoreConfig × Classifier) := do
  let file ← failing s!"failed to read {ConfigFile.name}"
    ((tree.readIfPresent (Path.join root ConfigFile.name)).mapError .other)
  let config ← plainly ((ConfigFile.load base file).mapError .other)
  let ignored ←
    if config.useGitignore then
      failing "failed to load ignore rules"
        ((tree.readIfPresent (Path.join root ".gitignore")).mapError .other)
    else pure none
  return (config, .forRoot config (ignored.map ignoreLines))

def relativeText (rel : List String) : String := if rel.isEmpty then "." else Path.joinParts rel

def candidateAt (tree : FileTree) (root : String) (base rel : List String) (content : List UInt8)
    (modified : Instant) : Candidate :=
  let text := relativeText rel
  let path := if rel.isEmpty then root else Path.join root text
  { path, relativePath := text, language := detectLanguage text, fileType := detectFileType text
    content, modified
    untold := (tree.refusal? .stat (base ++ rel)).map (·.message path)
    unread := (tree.refusal? .read (base ++ rel)).map (·.message path) }

def candidate? (tree : FileTree) (classifier : Classifier) (root : String) (base rel : List String) :
    Option Candidate :=
  match tree.node? (base ++ rel) with
  | some (.file content modified) =>
      if (classifier.skipReason? (relativeText rel)).isSome then none
      else some (candidateAt tree root base rel content modified)
  | _ => none

def isFile : Option FileNode → Bool
  | some (.file ..) => true
  | _ => false

/-- The places that a walk comes to. -/
def visited (tree : FileTree) (classifier : Classifier) (base : List String) : List (List String) :=
  tree.walk (fun rel => classifier.skipsDir (relativeText rel)) base (tree.entries.length + 1) []

/-- The refusal of a directory that is entered. -/
def unlisted? (tree : FileTree) (classifier : Classifier) (base rel : List String) : Option Refusal :=
  if tree.node? (base ++ rel) == some .directory && !classifier.skipsDir (relativeText rel) then
    tree.refusal? .list (base ++ rel)
  else none

/-- The directories below the root that could not be read. -/
def unreadable (tree : FileTree) (classifier : Classifier) (base : List String) : List (List String) :=
  (visited tree classifier base).filter fun rel =>
    !rel.isEmpty && (unlisted? tree classifier base rel).isSome

/-- The accepted files of a walk, and how many others or unreadable directories it met. -/
def found (tree : FileTree) (classifier : Classifier) (root : String) (base : List String) :
    List Candidate × Nat :=
  let places := visited tree classifier base
  let candidates := places.filterMap (candidate? tree classifier root base)
  let files := places.filter fun rel => isFile (tree.node? (base ++ rel))
  (candidates, files.length - candidates.length + (unreadable tree classifier base).length)

/-- Looks for the files of a project.  Nothing can be found if its root cannot be read; what cannot be
read below is skipped like a file that is not accepted. -/
def discover (tree : FileTree) (caller : Caller) (classifier : Classifier) (root : String) :
    Except Fault (List Candidate × Nat) :=
  match tree.placeOf false root with
  | .error fault => .error ⟨["failed to discover files"], .other (fault.message "lstat" root)⟩
  | .ok base =>
      match caller.waits (.walk (relativeText [])), unlisted? tree classifier base [] with
      | true, some refusal => .error ⟨["failed to discover files"], .other (refusal.message root)⟩
      | _, _ =>
          if (visited tree classifier base).all fun rel => caller.waits (.walk (relativeText rel)) then
            .ok (found tree classifier root base)
          else .error ⟨["failed to discover files"], .canceled⟩

def prior? (r : Run) (id : String) : Option FileEntry := r.prior.find? (·.file.id == id)

/-- Notes that a file could not be read.  What was known of it stays, unless the run is a fresh one. -/
def fail (r : Run) (s : RunState) (id : String) (c : Candidate) (message : String) : RunState :=
  { s with
    failed := s.failed + 1
    errors := s.errors ++ [c.relativePath ++ ": " ++ message]
    staged := if r.isFresh then s.staged else s.staged ++ (r.prior? id).toList }

def fileOf (r : Run) (id : String) (c : Candidate) (d : Decoded) : IndexedFile :=
  { id, projectId := r.project.id, path := c.path, relativePath := c.relativePath
    fileType := c.fileType, language := c.language, size := c.content.length
    lineCount := countLines d.bytes, lastModified := c.modified, lastIndexed := r.started
    checksum := checksum c.content, encoding := d.encoding.name }

/-- Takes up a candidate whose content was read: parses it unless its content is known and has been
parsed by this engine, and queues its document unless the index has it. -/
def takeContent (r : Run) (caller : Caller) (s : RunState) (c : Candidate) :
    RunState × Except Fault Unit :=
  let id := fileId r.project.id c.relativePath
  let d := decode c.content
  let known := (r.prior? id).filter fun f => !r.isFresh && f.file.checksum == checksum c.content
  match known with
  | some ⟨file, symbols, references, some usages⟩ =>
      ({ s with staged := s.staged ++ [⟨file, symbols, references, some usages⟩]
                unchanged := s.unchanged + 1 }, .ok ())
  | _ =>
      match s.parser.parse (caller.waits (.parse c.relativePath))
          ⟨id, c.relativePath, d.bytes, c.language⟩ with
      | (.error e, parser) => (r.fail { s with parser } id c e.message, .ok ())
      | (.ok (result, _), parser) =>
          let s := { s with parser }
          let found := result.found
          match known with
          | some f =>
              ({ s with
                  staged := s.staged ++ [⟨f.file, found.symbols, found.references, some found.usages⟩]
                  unchanged := s.unchanged + 1 }, .ok ())
          | none =>
              let file := r.fileOf id c d
              let queued :=
                if caller.waits (.submit c.relativePath) then
                  s.index.submit (.put ⟨file, d.text, found.symbols, found.references⟩)
                else .error (.of .canceled)
              match inContext s!"failed to queue document {c.relativePath}" queued with
              | .error f => (s, .error f)
              | .ok index =>
                  ({ s with
                      index
                      staged := s.staged ++ [⟨file, found.symbols, found.references, some found.usages⟩]
                      indexed := s.indexed + 1 }, .ok ())

/-- Takes up a candidate.  It is read if the system tells of it and it is not too large, and goes on if
it is text. -/
def take (r : Run) (caller : Caller) (s : RunState) (c : Candidate) : RunState × Except Fault Unit :=
  let id := fileId r.project.id c.relativePath
  if !caller.waits (.take c.relativePath) then (s, .error (.of .canceled))
  else
    match c.untold with
    | some message => (r.fail s id c message, .ok ())
    | none =>
        if r.ignore.maxFileSize > 0 && c.content.length > r.ignore.maxFileSize then
          ({ s with skipped := s.skipped + 1 }, .ok ())
        else
          match c.unread with
          | some message => (r.fail s id c message, .ok ())
          | none =>
              if isBinaryContent c.content then ({ s with skipped := s.skipped + 1 }, .ok ())
              else r.takeContent caller s c

def takeAll (r : Run) (caller : Caller) (s : RunState) :
    List Candidate → RunState × Except Fault Unit
  | [] => (s, if caller.waits .allTaken then .ok () else .error (.of .canceled))
  | c :: rest =>
      match r.take caller s c with
      | (s, .ok ()) => r.takeAll caller s rest
      | failed => failed

/-- Files that were known and are not any more, by identifier. -/
def stale (r : Run) (s : RunState) : List String :=
  ((r.prior.map (·.file.id)).filter fun id => !s.staged.any (·.file.id == id)).mergeSort (· ≤ ·)

def queue (live : Bool) (s : RunState) (op : WriteOp) : RunState × Except Fault Unit :=
  if live then
    match s.index.submit op with
    | .ok index => ({ s with index }, .ok ())
    | .error f => (s, .error f)
  else (s, .error (.of .canceled))

def eraseAll (caller : Caller) (s : RunState) : List String → RunState × Except Fault Unit
  | [] => (s, .ok ())
  | id :: rest =>
      match queue (caller.waits (.erase id)) s (.deleteFile id) with
      | (s, .ok ()) => eraseAll caller s rest
      | failed => failed

def fill (r : Run) (caller : Caller) (s : RunState) (candidates : List Candidate)
    (updated : Project) : RunState × Except Fault Unit :=
  let cleared :=
    if r.isFresh then queue (caller.waits .clear) s (.deleteProjectDocuments r.project.id)
    else (s, .ok ())
  match cleared with
  | (s, .error f) => (s, .error f)
  | (s, .ok ()) =>
      match r.takeAll caller s candidates with
      | (s, .error f) => (s, .error f)
      | (s, .ok ()) =>
          match eraseAll caller s (if r.isFresh then [] else r.stale s) with
          | (s, .error f) => (s, .error f)
          | (s, .ok ()) =>
              match queue (caller.waits .save) s (.saveProject updated) with
              | (s, .error f) => (s, .error f)
              | (s, .ok ()) => (s, if caller.waits .commit then .ok () else .error (.of .canceled))

def figures (r : Run) (s : RunState) : RunFigures where
  projectId := r.project.id
  files := s.staged.length
  filesIndexed := s.indexed
  filesUnchanged := s.unchanged
  filesSkipped := s.skipped
  filesFailed := s.failed
  filesRemoved := (r.stale s).length
  lines := wrap64 (signedTotal (s.staged.map (·.file.lineCount)))
  symbols := total (s.staged.map (·.symbols.length))
  references := total (s.staged.map (·.references.length))
  languages := tally (s.staged.map (·.file.language.name))
  fileTypes := tally (s.staged.map (·.file.fileType.name))
  errors := s.errors

def updatedProject (r : Run) (tree : FileTree) (now : Instant) : Project :=
  let repository := detectRepository tree r.project.rootPath
  { r.project with
    indexed := true
    lastIndexed := now
    repositoryKind := repository.kind.name
    branch := textOfGlyphs repository.branch
    remoteUrl := textOfGlyphs repository.remoteUrl }

end Run

namespace Engine

def adopt (e : Engine) (r : Run) (s : RunState) (updated : Project) : Engine :=
  { e with
    index := s.index
    parser := (r.stale s).foldl (fun parser id => parser.invalidate id) s.parser
    memory := (e.memory.drop r.project.id).setAll s.staged
    projects := setProject e.projects updated
    lastUpdate := updated.lastIndexed
    generation := e.generation + 1 }

def runHeld (e : Engine) (tree : FileTree) (caller : Caller) (now : Instant) (isFresh : Bool)
    (projectId : String) : Engine × Except Fault RunFigures :=
  match e.project? projectId with
  | none => (e, .error (.of (.projectNotFound projectId)))
  | some project =>
      match Run.loadRules tree e.ignore project.rootPath with
      | .error f => (e, .error f)
      | .ok (ignore, classifier) =>
          match Run.discover tree caller classifier project.rootPath with
          | .error f => (e, .error f)
          | .ok (candidates, skipped) =>
              let r : Run :=
                { project, isFresh, ignore, started := now, prior := e.projectFiles projectId }
              match openWriter e.index caller with
              | .error f => (e, .error f)
              | .ok index =>
                  let updated := r.updatedProject tree now
                  match r.fill caller ⟨index, e.parser, [], 0, 0, skipped, 0, []⟩ candidates updated with
                  | (s, .error f) =>
                      ({ e with index := discard s.index, parser := s.parser }, .error f)
                  | (s, .ok ()) =>
                      match s.index.commitUnless caller.refusal now with
                      | (index, .error f) =>
                          ({ e with index, parser := s.parser },
                            .error (f.within "failed to commit index"))
                      | (index, .ok ()) =>
                          ((e.adopt r { s with index } updated).refresh (caller.waits .figures),
                            .ok (r.figures s))

/-- Indexes a project: files whose content is known are neither read nor written again. -/
def indexProject (e : Engine) (tree : FileTree) (caller : Caller) (now : Instant)
    (projectId : String) : Engine × Except Fault RunFigures :=
  e.locked projectId fun e => e.runHeld tree caller now false projectId

def reindexProject (e : Engine) (tree : FileTree) (caller : Caller) (now : Instant)
    (projectId : String) : Engine × Except Fault RunFigures :=
  e.locked projectId fun e => e.runHeld tree caller now true projectId

end Engine

end CodeAtlas
