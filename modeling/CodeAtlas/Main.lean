import CodeAtlas.Cli.Invocation
import CodeAtlas.Index.Saved
import Std.Time.DateTime.Timestamp

/-!
The program itself.  It loads from the disk what a command may look at, runs the command, keeps the
index and prints the outcome.
-/

namespace CodeAtlas.Program

def placeOf (path : String) : List String := (Path.parts path).filter (· != "")

def instantOf (seconds : Int) (nanos : Nat) : Instant :=
  { (Instant.ofParts 1970 1 1 0 0 0 nanos).addSeconds seconds with fromClock := true }

def now : IO Instant := do
  let t ← Std.Time.Timestamp.now
  return instantOf t.toSecondsSinceUnixEpoch.val
    (t.toNanosecondsSinceUnixEpoch.val % 1000000000).toNat

def faultOf : IO.Error → PathFault
  | .permissionDenied .. => .denied
  | _ => .broken

/-- What stands at a path and below it, and what the system refuses there.  What it does not even tell
of is left out. -/
partial def loadBelow (path : String) (found : Array (List String × FileNode) × Array Refusal) :
    IO (Array (List String × FileNode) × Array Refusal) := do
  try
    let real ← IO.FS.realPath path
    let info ← real.metadata
    let place := placeOf path
    match info.type with
    | .dir =>
        let (entries, refusals) := found
        let mut found := (entries.push (place, .directory), refusals)
        match ← real.readDir.toBaseIO with
        | .error e => return (found.1, found.2.push ⟨.list, place, "open", faultOf e, []⟩)
        | .ok inside =>
            for entry in inside do
              let inner := path ++ "/" ++ entry.fileName
              match (← entry.path.symlinkMetadata).type with
              | .symlink =>
                  let target := (← IO.FS.realPath inner).toString
                  found := (found.1.push (placeOf inner, .link target), found.2)
              | _ => found ← loadBelow inner found
            return found
    | .file =>
        let (entries, refusals) := found
        let modified := instantOf info.modified.sec info.modified.nsec.toNat
        match ← (IO.FS.readBinFile real).toBaseIO with
        | .ok content => return (entries.push (place, .file content.toList modified), refusals)
        | .error e =>
            let unknown := List.replicate info.byteSize.toNat 0
            return (entries.push (place, .file unknown modified),
              refusals.push ⟨.read, place, "open", faultOf e, []⟩)
    | _ => return found
  catch _ => return found

def ancestors (place : List String) : List (List String × FileNode) :=
  (List.range place.length).filterMap fun n =>
    if n == 0 then none else some (place.take n, .directory)

/-- The tree of all that stands at some paths, seen from the current directory. -/
def loadTree (paths : List String) : IO FileTree := do
  let current := (← IO.currentDir).toString
  let blank : FileTree := { FileTree.empty with current := placeOf current }
  let roots := (paths.map blank.absolute).eraseDups
  let mut found : Array (List String × FileNode) × Array Refusal := (#[], #[])
  for root in roots do
    found ← loadBelow root found
  let above := (current :: roots).flatMap fun root => ancestors (placeOf root)
  let places := found.1.toList.map (·.1)
  return { blank with
    entries := ((placeOf current, FileNode.directory) :: above).eraseDups.filter (!places.contains ·.1) ++
      found.1.toList
    refusals := found.2.toList }

def loadIndex (path : String) : IO (Option Database) := do
  try
    let bytes ← IO.FS.readBinFile path
    let rest := bytes.extract Workspace.mark.length bytes.size
    if (bytes.extract 0 Workspace.mark.length).toList == Workspace.mark then
      return (String.fromUTF8? rest).bind Database.ofText?
    else return none
  catch _ => return none

/-- A count that no earlier run has reached. -/
def freshCount : IO Nat := do
  let t ← Std.Time.Timestamp.now
  return (t.toNanosecondsSinceUnixEpoch.val / 1000).toNat % 140737488355328

/-- What a task may look at, beside the projects that are known. -/
def rootsOf : Task → List String
  | .add path .. => [path]
  | _ => []

def loadWorkspace (task : Task) (path : String) : IO Workspace := do
  let stored ← loadIndex path
  let known := (stored.map fun db => db.projects.map (·.project.rootPath)).getD []
  let tree ← loadTree (path :: rootsOf task ++ known)
  let place := placeOf (tree.absolute path)
  let minted ← freshCount
  match stored with
  | none => return ⟨tree, [], minted⟩
  | some db => return ⟨tree.set place (.file Workspace.mark (← now)), [(place, db)], minted⟩

def keep (w : Workspace) (path : String) : IO Unit := do
  match w.databases.find? (·.1 == placeOf (w.tree.absolute path)) with
  | none => return
  | some (_, db) =>
      IO.FS.createDirAll (Path.dir path)
      IO.FS.writeBinFile path (⟨Workspace.mark.toArray⟩ ++ db.toText.toUTF8)

/-- Serves clients line by line until they are done. -/
partial def serveFrom (path : String) (w : Workspace) (opened : OpenIndex) (start : Engine)
    (s : Server) : IO Unit := do
  let line ← (← IO.getStdin).getLine
  if line == "" then return
  let roots := ((Json.parse? line).map fun m =>
    ((m.field "params").field "arguments").text "path").getD ""
  let tree ← loadTree (roots :: path :: s.engine.projects.map (·.rootPath))
  let moment ← now
  let seen := Invocation.treeFor { w with tree } moment opened start s.engine
  let (s, reply) := Message.take s ⟨seen, moment⟩ (dropSuffix "\n" line)
  keep (w.adopt opened.place s.engine) path
  if let some reply := reply then
    IO.println reply.render
    (← IO.getStdout).flush
  serveFrom path w opened start s

def environment : IO Environment := do
  let names := ["HOME", "CODEINDEX_DB_PATH", "CODEINDEX_WORKERS", "CODEINDEX_LOG_LEVEL"]
  return ⟨← names.filterMapM fun name => return (← IO.getEnv name).map (name, ·)⟩

def print (about : Circumstances) : Output → IO Unit
  | .text tell => IO.print (tell about)
  | .json value => IO.println value.pretty
  | .messages replies => replies.forM fun reply => IO.println reply.render

def sizeOf (path : String) : IO Nat := do
  try return (← IO.FS.readBinFile path).size
  catch _ => return 0

def finish (path : String) (i : Invocation) (w : Workspace) : IO UInt32 := do
  let started ← IO.monoNanosNow
  let (w, result) := i.run w
  keep w path
  match result with
  | .error fault =>
      IO.eprintln ("Error: " ++ fault.message)
      return 1
  | .ok output =>
      let about : Circumstances :=
        { elapsed := Circumstances.spanText ((← IO.monoNanosNow) - started)
          indexSize := Circumstances.sizeText (← sizeOf path)
          ago := Circumstances.agoText (← now)
          platform := "unknown" }
      print about output
      return 0

def serve (path : String) (w : Workspace) : IO UInt32 := do
  match Invocation.openEngine w true (← now) path with
  | (w, .error fault) =>
      keep w path
      IO.eprintln ("Error: " ++ fault.message)
      return 1
  | (w, .ok (opened, e)) =>
      serveFrom path w opened e (.new e)
      return 0

end CodeAtlas.Program

open CodeAtlas CodeAtlas.Program in
def main (words : List String) : IO UInt32 := do
  let env ← environment
  let usual := if ← (← IO.getStdout).isTty then OutputFormat.human else .json
  let i : Invocation := ⟨words, env, [], usual, .patient, ← now⟩
  match Task.read usual words env with
  | .ok (task, some settings) =>
      let path := Address.filePath settings.database
      let w ← loadWorkspace task path
      if task == .serve then serve path w else finish path i w
  | _ => finish "" i ⟨← loadTree [], [], 0⟩
