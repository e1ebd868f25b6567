import CodeAtlas.Text.Glyph
import CodeAtlas.Tree.Basic

/-!
Version control at the root of a project.  What cannot be read leaves its field empty.
-/

namespace CodeAtlas

inductive RepositoryKind where
  | git
  | mercurial
  | subversion
  | bazaar
  | perforce
  | fileSystem
  deriving DecidableEq, Repr, Inhabited

def RepositoryKind.name : RepositoryKind → String
  | git => "git"
  | mercurial => "mercurial"
  | subversion => "subversion"
  | bazaar => "bazaar"
  | perforce => "perforce"
  | fileSystem => "filesystem"

/-- The branch may be cut inside a character. -/
structure RepositoryInfo where
  kind : RepositoryKind
  branch : List Glyph
  remoteUrl : List Glyph
  deriving DecidableEq, Repr, Inhabited

namespace Repository

/-- Entries that mark a repository, in the order in which they are looked for. -/
def markers : List (String × RepositoryKind) :=
  [(".git", .git), (".hg", .mercurial), (".svn", .subversion), (".bzr", .bazaar),
    (".p4config", .perforce)]

def dropBlankGlyphs (glyphs : List Glyph) : List Glyph := glyphs.dropWhile fun g => isBlank g.char

def trimGlyphs (glyphs : List Glyph) : List Glyph :=
  (dropBlankGlyphs (dropBlankGlyphs glyphs).reverse).reverse

def after? (start : String) (glyphs : List Glyph) : Option (List Glyph) :=
  let part := glyphsOfText start
  if startsWith part glyphs then some (glyphs.drop part.length) else none

/-- The first `n` bytes; a character that is cut leaves stray bytes. -/
def cutBytes : Nat → List Glyph → List Glyph
  | 0, _ => []
  | _, [] => []
  | n, g :: rest => if g.width ≤ n then g :: cutBytes (n - g.width) rest else List.replicate n .stray

def trimmedFile? (t : FileTree) (path : String) : Option (List Glyph) :=
  (t.read path).toOption.map fun content => trimGlyphs (glyphsOfBytes content)

def pathFrom (dir : String) (target : List Glyph) : String :=
  let target := textOfGlyphs target
  if Path.isAbsolute target then target else Path.join dir target

/-- The directory with the data of the repository; a file may point to it. -/
def dataDir? (t : FileTree) (root : String) : Option String :=
  let marker := Path.join root ".git"
  match t.look true marker with
  | .ok .directory => some marker
  | .ok _ => do
      let target ← after? "gitdir:" (← trimmedFile? t marker)
      some (pathFrom root (trimGlyphs target))
  | .error _ => none

/-- The branch that is checked out, or the start of a commit's name. -/
def branch (t : FileTree) (dir : String) : List Glyph :=
  match trimmedFile? t (Path.join dir "HEAD") with
  | none => []
  | some head =>
      match after? "ref:" head with
      | some ref =>
          let ref := trimGlyphs ref
          (after? "refs/heads/" ref).getD ref
      | none => cutBytes 7 head

/-- Lines of at least this size are not read, nor any after them. -/
def maxLine : Nat := 65536

def shortLines (content : List Glyph) : List (List Glyph) :=
  (splitOn (·.char == '\n') content).takeWhile fun line => glyphBytes line < maxLine

/-- Looks for the address of the remote repository; `inside` while its section lasts. -/
def urlIn (inside : Bool) : List (List Glyph) → List Glyph
  | [] => []
  | line :: rest =>
      let line := trimGlyphs line
      match line.map (·.char) with
      | [] => urlIn inside rest
      | '#' :: _ => urlIn inside rest
      | ';' :: _ => urlIn inside rest
      | '[' :: _ => urlIn (line == glyphsOfText "[remote \"origin\"]") rest
      | _ =>
          let key := line.takeWhile (·.char != '=')
          if inside && key.length < line.length && trimGlyphs key == glyphsOfText "url" then
            trimGlyphs (line.drop (key.length + 1))
          else urlIn inside rest

/-- The address of the remote repository.  A second working tree shares its settings. -/
def remoteUrl (t : FileTree) (dir : String) : List Glyph :=
  let settings := match trimmedFile? t (Path.join dir "commondir") with
    | some target => pathFrom dir target
    | none => dir
  match t.read (Path.join settings "config") with
  | .ok content => urlIn false (shortLines (glyphsOfBytes content))
  | .error _ => []

end Repository

def detectRepository (t : FileTree) (root : String) : RepositoryInfo :=
  match Repository.markers.find? fun (name, _) => t.exists? (Path.join root name) with
  | none => ⟨.fileSystem, [], []⟩
  | some (_, .git) =>
      match Repository.dataDir? t root with
      | some dir => ⟨.git, Repository.branch t dir, Repository.remoteUrl t dir⟩
      | none => ⟨.git, [], []⟩
  | some (_, kind) => ⟨kind, [], []⟩

end CodeAtlas
