import CodeAtlas.Pattern.Reader
import CodeAtlas.Text.Blank

/-!
Ignore rules, one per line.  A rule is turned into a regular expression, so whatever means something
there means it here too.
-/

namespace CodeAtlas

/-- A rule: the paths it speaks of, and whether it takes them back in. -/
structure IgnoreRule where
  pattern : Pattern
  negated : Bool
  deriving Inhabited

namespace IgnoreRule

/-- Stands for a star that is already part of the regular expression. -/
def starMark : String := "#$~"

/-- Whether a star and a dot follow, on the same line, a slash that follows something else than a slash
or plus. -/
def hasNestedStar : List Char → Bool
  | a :: b :: rest =>
      (a != '/' && a != '+' && b == '/' &&
          (indexOf? ['*', '.'] (rest.takeWhile (· != '\n'))).isSome) ||
        hasNestedStar (b :: rest)
  | _ => false

/-- A rule with such a star means paths from the root. -/
def anchor (line : String) : String :=
  if hasNestedStar line.toList && !hasPrefix "/" line then "/" ++ line else line

/-- The regular expression for stars and the characters that mean something there and not in a rule. -/
def starsToExpression (line : String) : String :=
  let line := replaceText "." "\\." line
  let line := if hasPrefix "/**/" line then String.ofList (line.toList.drop 1) else line
  let line := replaceText "/**/" "(/|/.+/)" line
  let line := replaceText "**/" ("(|." ++ starMark ++ "/)") line
  let line := replaceText "/**" ("(|/." ++ starMark ++ ")") line
  let line := replaceText "\\*" ("\\" ++ starMark) line
  let line := replaceText "*" "([^/]*)" line
  let line := replaceText "?" "\\?" line
  replaceText starMark "*" line

/-- The regular expression of a rule: it may start below any directory unless it starts with a slash,
and it speaks of all that is below what it names. -/
def expression (line : String) : String :=
  let line := starsToExpression (anchor line)
  let line := line ++ if hasSuffix "/" line then "(|.*)$" else "(|/.*)$"
  if hasPrefix "/" line then "^(|/)" ++ String.ofList (line.toList.drop 1) else "^(|.*/)" ++ line

def trimChar (c : Char) (line : List Char) : List Char :=
  ((line.dropWhile (· == c)).reverse.dropWhile (· == c)).reverse

def trimEnd (c : Char) (line : List Char) : List Char :=
  (line.reverse.dropWhile (· == c)).reverse

/-- The rule of a line; nothing for comments, empty lines, and lines that are no regular expression. -/
def ofLine? (line : String) : Option IgnoreRule :=
  let cs := trimEnd '\r' line.toList
  if cs.head? == some '#' then none
  else
    match trimChar ' ' cs with
    | [] => none
    | c :: rest =>
        let (negated, cs) := if c == '!' then (true, rest) else (false, c :: rest)
        let cs := if cs.head? == some '#' || cs.head? == some '!' then cs.drop 1 else cs
        (Expression.parse? (expression (String.ofList cs))).map fun e => ⟨e.pattern, negated⟩

def ofLines (lines : List String) : List IgnoreRule := lines.filterMap ofLine?

/-- Whether the rules ignore a path: the last one that speaks of it decides. -/
def ignores (rules : List IgnoreRule) (path : String) : Bool :=
  rules.foldl (fun ignored r => if r.pattern.matchesText path then !r.negated else ignored) false

end IgnoreRule

/-!
What a project leaves out of the index.
-/

/-- Names of directories, names or wildcards of files, extra ignore rules, a bound on the size of files
(none unless positive), and whether the project's own ignore file counts. -/
structure IgnoreConfig where
  ignoreDirs : List String
  ignoreFiles : List String
  patterns : List String
  maxFileSize : Int
  useGitignore : Bool
  deriving DecidableEq, Repr, Inhabited

namespace IgnoreConfig

def bare : IgnoreConfig := ⟨[], [], [], 0, false⟩

def standard : IgnoreConfig :=
  { ignoreDirs := [".git", ".hg", ".svn", "CVS", "SCCS", ".bzr", "_darcs", ".repo",
      "node_modules", "vendor", "target", "build", "dist", "out", "bin", "obj", "Debug", "Release",
      "__pycache__", ".pytest_cache", ".coverage", ".nyc_output", "coverage",
      ".idea", ".vscode", ".vs"]
    ignoreFiles := ["*.class", "*.jar", "*.war", "*.ear",
      "*.zip", "*.tar", "*.gz", "*.bz2", "*.7z", "*.rar",
      "*.exe", "*.dll", "*.so", "*.dylib", "*.a", "*.lib", "*.o", "*.obj",
      "*.pyc", "*.pyo", "*.pyd", "*.whl", "*.egg",
      "*.log", "*.tmp", "*.temp", "*.cache", "*.lock",
      "Cargo.lock", "package-lock.json", "yarn.lock"]
    patterns := []
    maxFileSize := 1024 * 1024
    useGitignore := true }

/-- What a project's own file may override: lists are added, the others replaced if they are given. -/
structure Overrides where
  ignoreDirs : List String
  ignoreFiles : List String
  patterns : List String
  maxFileSize : Option Int
  useGitignore : Option Bool
  deriving DecidableEq, Repr, Inhabited

def Overrides.none : Overrides := ⟨[], [], [], .none, .none⟩

def apply (config : IgnoreConfig) (o : Overrides) : IgnoreConfig :=
  { ignoreDirs := config.ignoreDirs ++ o.ignoreDirs
    ignoreFiles := config.ignoreFiles ++ o.ignoreFiles
    patterns := config.patterns ++ o.patterns
    maxFileSize := o.maxFileSize.getD config.maxFileSize
    useGitignore := o.useGitignore.getD config.useGitignore }

end IgnoreConfig

end CodeAtlas
