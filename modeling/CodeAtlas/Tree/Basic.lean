import CodeAtlas.Model.Instant
import CodeAtlas.Path.Basic

/-!
File trees: directories, files and links.  A path names what is found by going down from the root part
by part, following links on the way.
-/

namespace CodeAtlas

inductive FileNode where
  | directory
  | file (content : List UInt8) (modified : Instant)
  | link (target : String)
  deriving DecidableEq, Repr, Inhabited

inductive PathFault where
  | noEntry
  | notDirectory
  | isDirectory
  | tooManyLinks
  | nameTooLong
  | invalid
  | alreadyThere
  | denied
  | broken
  deriving DecidableEq, Repr

def PathFault.text : PathFault → String
  | noEntry => "no such file or directory"
  | notDirectory => "not a directory"
  | isDirectory => "is a directory"
  | tooManyLinks => "too many levels of symbolic links"
  | nameTooLong => "file name too long"
  | invalid => "invalid argument"
  | alreadyThere => "file exists"
  | denied => "permission denied"
  | broken => "input/output error"

def PathFault.message (action path : String) (fault : PathFault) : String :=
  action ++ " " ++ path ++ ": " ++ fault.text

/-- What is asked of the system about a place: the names in a directory, what stands there, or the
content of a file. -/
inductive FileAct where
  | list
  | stat
  | read
  deriving DecidableEq, Repr

/-- Something that the system refuses at a place, with what it has tried.  A directory may have given
some of its names before. -/
structure Refusal where
  act : FileAct
  place : List String
  tried : String
  fault : PathFault
  names : List String
  deriving DecidableEq, Repr

def Refusal.message (r : Refusal) (path : String) : String := r.fault.message r.tried path

/-- Everything below the root, by the parts of its path, the directory that relative paths start from,
and what the system refuses to do.  No two entries have the same path. -/
structure FileTree where
  entries : List (List String × FileNode)
  current : List String
  refusals : List Refusal := []
  deriving Inhabited

namespace FileTree

def empty : FileTree := ⟨[], [], []⟩

/-- What stands at a place, not following links. -/
def node? (t : FileTree) (place : List String) : Option FileNode :=
  if place.isEmpty then some .directory else (t.entries.find? (·.1 == place)).map (·.2)

def refusal? (t : FileTree) (act : FileAct) (place : List String) : Option Refusal :=
  t.refusals.find? fun r => r.act == act && r.place == place

def maxName : Nat := 255

def maxLinks : Nat := 40

/-- The place that a path leads to, from a directory on.  A link at the end of the path is followed
only if `follow`; `jump` goes on from the directory of a link with its target and the rest. -/
def locateWith (t : FileTree) (follow : Bool)
    (jump : List String → List String → Except PathFault (List String)) (here : List String) :
    List String → Except PathFault (List String)
  | [] => .ok here
  | part :: rest =>
      if part == "" || part == "." then t.locateWith follow jump here rest
      else if part == ".." then t.locateWith follow jump here.dropLast rest
      else if part.utf8ByteSize > maxName then .error .nameTooLong
      else
        match t.node? (here ++ [part]) with
        | none => .error .noEntry
        | some .directory => t.locateWith follow jump (here ++ [part]) rest
        | some (.file ..) => if rest.isEmpty then .ok (here ++ [part]) else .error .notDirectory
        | some (.link target) =>
            if rest.isEmpty && !follow then .ok (here ++ [part])
            else jump (if Path.isAbsolute target then [] else here) (Path.parts target ++ rest)

def locate (t : FileTree) (follow : Bool) :
    Nat → List String → List String → Except PathFault (List String)
  | 0 => t.locateWith follow fun _ _ => .error .tooManyLinks
  | links + 1 => t.locateWith follow (t.locate follow links)

def placeOf (t : FileTree) (follow : Bool) (path : String) : Except PathFault (List String) :=
  if path.toList.contains '\x00' then .error .invalid
  else if path == "" then .error .noEntry
  else t.locate follow maxLinks (if Path.isAbsolute path then [] else t.current) (Path.parts path)

/-- What a path leads to; it is no link if links are followed. -/
def look (t : FileTree) (follow : Bool) (path : String) : Except PathFault FileNode := do
  let place ← t.placeOf follow path
  match t.node? place, t.refusal? .stat place with
  | some node, none => return node
  | some _, some refusal => throw refusal.fault
  | none, _ => throw .noEntry

def absolute (t : FileTree) (path : String) : String :=
  if Path.isAbsolute path then Path.clean path
  else Path.join ("/" ++ Path.joinParts t.current) path

def exists? (t : FileTree) (path : String) : Bool := (t.look true path).isOk

/-- The content of a file, or what was tried in vain. -/
def read (t : FileTree) (path : String) : Except (String × PathFault) (List UInt8) :=
  match t.placeOf true path with
  | .error fault => .error ("open", fault)
  | .ok place =>
      match t.node? place, t.refusal? .read place with
      | some (.file content _), none => .ok content
      | some (.file ..), some refusal => .error (refusal.tried, refusal.fault)
      | some _, _ => .error ("read", .isDirectory)
      | none, _ => .error ("open", .noEntry)

/-- The content of a file that may be missing. -/
def readIfPresent (t : FileTree) (path : String) : Except String (Option (List UInt8)) :=
  match t.read path with
  | .ok content => .ok (some content)
  | .error (_, .noEntry) => .ok none
  | .error (action, fault) => .error (fault.message action path)

def names (t : FileTree) (dir : List String) : List String :=
  (t.entries.filterMap fun (place, _) =>
    if place.dropLast == dir then place.getLast? else none).mergeSort (· ≤ ·)

/-- The names that a directory gives. -/
def listed (t : FileTree) (dir : List String) : List String :=
  match t.refusal? .list dir with
  | some refusal => (t.names dir).filter refusal.names.contains
  | none => t.names dir

def set (t : FileTree) (place : List String) (node : FileNode) : FileTree :=
  { t with entries := t.entries.filter (·.1 != place) ++ [(place, node)] }

/-- Makes the missing directories on the way to a place, those before `done` being there. -/
def makeDirs (t : FileTree) (done : List String) : List String → FileTree
  | [] => t
  | part :: rest =>
      let place := done ++ [part]
      match t.node? place with
      | some _ => t.makeDirs place rest
      | none => (t.set place .directory).makeDirs place rest

/-- Puts a node at a path below a directory, with all directories on the way.  A file goes where a
link leads. -/
def put (t : FileTree) (path : String) (node : FileNode) : FileTree :=
  let parts := (Path.parts (Path.clean path)).filter (· != "")
  let t := t.makeDirs [] parts.dropLast
  let place := match node, t.placeOf true path with
    | .file .., .ok place => place
    | _, _ => parts
  match node with
  | .directory => t.makeDirs [] parts
  | _ => t.set place node

def remove (t : FileTree) (path : String) : FileTree :=
  match t.placeOf false path with
  | .ok place => { t with entries := t.entries.filter fun (p, _) => !place.isPrefixOf p }
  | .error _ => t

/-- The places below a base that a walk comes to, each directory before what it gives of its content.
Directories that are skipped are not entered. -/
def walk (t : FileTree) (skips : List String → Bool) (base : List String) :
    Nat → List String → List (List String)
  | 0, _ => []
  | fuel + 1, rel =>
      rel :: match t.node? (base ++ rel) with
        | some .directory =>
            if skips rel then []
            else (t.listed (base ++ rel)).flatMap fun name => t.walk skips base fuel (rel ++ [name])
        | _ => []

end FileTree

/-!
Making directories in a file tree.
-/

namespace FileTree

/-- A path without its last part, up to the separator before it. -/
def parentText (path : String) : String :=
  let back := path.toList.reverse
  String.ofList (((back.dropWhile (· == '/')).dropWhile (· != '/')).reverse)

def makeDir (t : FileTree) (path : String) : Except PathFault FileTree :=
  match t.placeOf false path with
  | .ok _ => .error .alreadyThere
  | .error .notDirectory => .error .alreadyThere
  | .error .noEntry =>
      let parts := (Path.parts path).filter (· != "")
      match t.placeOf true (if parentText path == "" then "." else parentText path), parts.getLast? with
      | .ok parent, some name => .ok (t.set (parent ++ [name]) .directory)
      | .error fault, _ => .error fault
      | .ok _, none => .error .noEntry
  | .error fault => .error fault

/-- Makes a directory and those that are missing above it.  The path grows shorter with every step up. -/
def makeDirPath (t : FileTree) : Nat → String → Except (String × PathFault) FileTree
  | 0, path => .error (path, .noEntry)
  | fuel + 1, path =>
      match t.look true path with
      | .ok .directory => .ok t
      | .ok _ => .error (path, .notDirectory)
      | .error _ => do
          let t ← if parentText path == "" then pure t else t.makeDirPath fuel (parentText path)
          match t.makeDir path, t.look false path with
          | .ok t, _ => return t
          | .error _, .ok .directory => return t
          | .error fault, _ => throw (path, fault)

def ensureDir (t : FileTree) (path : String) : Except (String × PathFault) FileTree :=
  t.makeDirPath (path.length + 1) path

end FileTree

end CodeAtlas
