import CodeAtlas.Cli.Flag
import CodeAtlas.Engine.Run
import CodeAtlas.Path.Basic
import CodeAtlas.Text.CharClass
import CodeAtlas.Tree.Basic

/-!
The settings of an invocation.  A flag wins over the environment, and the environment over what is
usual.
-/

namespace CodeAtlas

structure Environment where
  values : List (String × String)
  deriving DecidableEq, Repr, Inhabited

/-- The value of a variable, empty if it is not set. -/
def Environment.get (e : Environment) (name : String) : String :=
  ((e.values.find? (·.1 == name)).map (·.2)).getD ""

inductive OutputFormat where
  | human
  | json
  deriving DecidableEq, Repr

structure Settings where
  database : String
  workers : Int
  format : OutputFormat
  deriving DecidableEq, Repr

namespace Settings

/-- The name of an index that is kept nowhere. -/
def inMemory : String := ":memory:"

def databaseOf (p : ParsedFlags) (env : Environment) : Except String String :=
  let path := if p.isGiven "db" then p.text "db" else env.get "CODEINDEX_DB_PATH"
  if path != "" then .ok path
  else
    match env.get "HOME" with
    | "" => .error "failed to get home directory: $HOME is not defined"
    | home => .ok (Path.join (Path.join home ".codeindex") "index.db")

/-- How many workers parse files; zero leaves it open. -/
def workersOf (p : ParsedFlags) (env : Environment) : Except String Int :=
  let text := env.get "CODEINDEX_WORKERS"
  if p.isGiven "workers" || text == "" then .ok (p.integer "workers" 0)
  else
    match readLooseInteger text with
    | .ok n => if n < 0 then .error (refusal text) else .ok n
    | .error _ => .error (refusal text)
where
  refusal (text : String) : String := "invalid CODEINDEX_WORKERS " ++ quoted text

def levels : List String := ["DEBUG", "INFO", "WARN", "ERROR"]

/-- Why a text names no level of logging.  An offset may follow the name. -/
def levelFault? (text : String) : Option String :=
  let isSign (c : Char) : Bool := c == '+' || c == '-'
  let name := text.toList.takeWhile (!isSign ·)
  let offset := String.ofList (text.toList.dropWhile (!isSign ·))
  match offset, readDecimal offset with
  | "", _ | _, .ok _ =>
      if levels.contains (String.ofList (name.map toUpper)) then none else some "unknown name"
  | _, .error fault => some (fault.message "Atoi" offset)

def checkLevel (p : ParsedFlags) (env : Environment) : Except String Unit :=
  let level := if p.isGiven "log-level" then p.text "log-level" else env.get "CODEINDEX_LOG_LEVEL"
  if level == "" then .ok ()
  else
    let lower := lowerText level
    match levelFault? lower with
    | none => .ok ()
    | some reason => .error ("invalid log level " ++ quoted level ++ ": slog: level string " ++
        quoted lower ++ ": " ++ reason)

def formatOf (usual : OutputFormat) (p : ParsedFlags) : Except String OutputFormat :=
  match p.text "format" with
  | "" => .ok usual
  | "human" => .ok .human
  | "json" => .ok .json
  | other => .error ("unsupported format " ++ quoted other ++ " (want human or json)")

/-- Settles all settings, in the order in which they are refused. -/
def resolve (usual : OutputFormat) (p : ParsedFlags) (env : Environment) :
    Except String Settings := do
  let database ← databaseOf p env
  let workers ← workersOf p env
  checkLevel p env
  return { database, workers, format := ← formatOf usual p }

end Settings

end CodeAtlas

/-!
What commands find and what they leave behind: a file tree, and in it the files that hold an index.
The content of such a file is only marked in the tree; its tables are kept beside it.
-/

namespace CodeAtlas

/-- Tables by the place of their file; `minted` counts the identifiers given to projects. -/
structure Workspace where
  tree : FileTree
  databases : List (List String × Database)
  minted : Nat

/-- An index in use: where it is kept, unless in memory only, and whether opening it has changed it. -/
structure OpenIndex where
  place : Option (List String)
  index : Index
  migrated : Bool

namespace Workspace

def mark : List UInt8 := "code index 1\x00".toUTF8.toList

def setDatabase (w : Workspace) (place : List String) (db : Database) : Workspace :=
  { w with databases := (place, db) :: w.databases.filter (·.1 != place) }

/-- The tables in a file; none if the file holds something else. -/
def database? (w : Workspace) (place : List String) : Option Database :=
  match w.tree.node? place with
  | some (.file [] _) => some .empty
  | some (.file content _) =>
      if content == mark then (w.databases.find? (·.1 == place)).map (·.2) else none
  | _ => none

def unreachable (reason : String) : Fault :=
  ⟨["failed to initialize storage", "failed to open database", "failed to connect"], .other reason⟩

/-- The place of the index file at a path, which may still have to be made. -/
def placeOfIndex (w : Workspace) (path : String) : Except Fault (List String) :=
  match w.tree.look true path, w.tree.placeOf true path, w.tree.placeOf false path with
  | .ok (.file ..), .ok place, _ => .ok place
  | .error .noEntry, _, .error .noEntry =>
      match w.tree.placeOf true (Path.dir path) with
      | .ok parent => .ok (parent ++ [Path.base path])
      | .error _ => .error (unreachable "unable to open database file (14)")
  | _, _, _ => .error (unreachable "unable to open database file (14)")

/-- Opens the index file at a place and brings it to the newest layout, as far as that goes. -/
def openAt (w : Workspace) (now : Instant) (place : List String) :
    Workspace × Except Fault OpenIndex :=
  let found := if (w.tree.node? place).isNone then some Database.empty else w.database? place
  match found with
  | none => (w, .error (unreachable "file is not a database (26)"))
  | some db =>
      let (index, migrated) := Index.reopen ⟨db, false, none⟩
      let w := { w with tree := w.tree.set place (.file mark now) }
      (w.setDatabase place index.database,
        inContext "failed to initialize storage" (migrated.map fun _ =>
          ⟨some place, index, index.database.versions != db.versions⟩))

def openIndex (w : Workspace) (now : Instant) (path : String) : Workspace × Except Fault OpenIndex :=
  if path == Settings.inMemory then (w, .ok ⟨none, .new, true⟩)
  else
    match w.tree.ensureDir (Path.dir path) with
    | .error (dir, fault) =>
        (w, .error ⟨["failed to create database directory"], .other (fault.message "mkdir" dir)⟩)
    | .ok tree =>
        let w := { w with tree }
        match w.placeOfIndex (Address.filePath path) with
        | .error f => (w, .error f)
        | .ok place =>
            if Address.isSound path then w.openAt now place
            else (w, .error (unreachable "malformed address"))

/-- The place of a file beside another, with a longer name. -/
def beside (place : List String) (ending : String) : List String :=
  place.dropLast ++ [(place.getLast?.getD "") ++ ending]

/-- The tree while an index is in use.  Beside its file stand one with a log of what was written and
one that is shared by all users. -/
def treeInUse (w : Workspace) (now : Instant) (place : Option (List String)) (written : Bool) :
    FileTree :=
  match place with
  | none => w.tree
  | some place =>
      (w.tree.set (beside place "-wal") (.file (if written then mark else []) now)).set
        (beside place "-shm") (.file mark now)

def adopt (w : Workspace) (place : Option (List String)) (e : Engine) : Workspace :=
  let w := { w with minted := e.minted }
  match place with
  | none => w
  | some place => w.setDatabase place e.index.database

end Workspace

end CodeAtlas
