import CodeAtlas.Classify.IgnoreRule
import CodeAtlas.Model.Language
import CodeAtlas.Path.Basic
import CodeAtlas.Pattern.Wildcard

/-!
The language and the category of a file, by its name.
-/

namespace CodeAtlas

def languageOfExtension? : String → Option Language
  | "rs" => some .rust
  | "js" | "mjs" | "cjs" | "jsx" => some .javascript
  | "ts" => some .typescript
  | "tsx" => some .tsx
  | "py" | "pyw" => some .python
  | "java" => some .java
  | "c" | "h" => some .c
  | "cpp" | "cc" | "cxx" | "hpp" | "hxx" => some .cpp
  | "go" => some .go
  | "html" | "htm" => some .html
  | "css" => some .css
  | "json" => some .json
  | "xml" => some .xml
  | "yaml" | "yml" => some .yaml
  | "toml" => some .toml
  | "md" | "markdown" => some .markdown
  | "sh" | "bash" | "zsh" => some .shell
  | "sql" => some .sql
  | _ => none

/-- Build files are known by their whole name. -/
def languageOfName? : String → Option Language
  | "Dockerfile" => some .dockerfile
  | "Makefile" | "GNUmakefile" | "makefile" => some .makefile
  | "CMakeLists.txt" => some .cmake
  | _ => none

def extensionsByType : List (FileType × List String) := [
  (.source, ["rs", "js", "mjs", "cjs", "jsx", "ts", "tsx", "py", "pyw", "java", "c", "h", "cpp", "cc",
    "cxx", "hpp", "hxx", "go", "sh", "bash", "zsh", "sql", "rb", "php", "kt", "swift", "scala", "cs",
    "lua", "html", "htm", "css"]),
  (.documentation, ["md", "markdown", "rst", "txt", "adoc", "org"]),
  (.configuration, ["toml", "yaml", "yml", "ini", "cfg", "conf", "properties", "env"]),
  (.data, ["json", "xml", "csv", "tsv"]),
  (.binary, ["exe", "dll", "so", "dylib", "a", "lib", "o", "obj", "class", "pyc", "pyo", "pyd", "wasm",
    "bin"]),
  (.archive, ["zip", "tar", "gz", "bz2", "xz", "7z", "rar", "jar", "war", "ear", "whl", "egg"]),
  (.image, ["png", "jpg", "jpeg", "gif", "bmp", "ico", "svg", "webp", "tiff"])]

def bareExtension (name : String) : String :=
  lowerText (dropPrefix "." (Path.extension name))

def detectLanguage (path : String) : Language :=
  let name := Path.base path
  ((languageOfName? name).or (languageOfExtension? (bareExtension name))).getD .text

def detectFileType (path : String) : FileType :=
  let name := Path.base path
  if (languageOfName? name).isSome then .configuration
  else
    let e := bareExtension name
    ((extensionsByType.find? fun group => group.2.contains e).map (·.1)).getD .unknown

end CodeAtlas

/-!
Which paths of a project are indexed.
-/

namespace CodeAtlas

inductive SkipReason where
  | hidden
  | ignoredDirectory
  | ignoredFile
  | binaryExtension
  | gitignore
  deriving DecidableEq, Repr, Inhabited

def SkipReason.text : SkipReason → String
  | hidden => "hidden"
  | ignoredDirectory => "ignored directory"
  | ignoredFile => "ignored file"
  | binaryExtension => "binary extension"
  | gitignore => "gitignore"

/-- A configuration, and what tells the paths that its ignore rules speak of. -/
structure Classifier where
  config : IgnoreConfig
  ignores : String → Bool
  deriving Inhabited

namespace Classifier

def new (config : IgnoreConfig) : Classifier := ⟨config, IgnoreRule.ignores (IgnoreRule.ofLines config.patterns)⟩

/-- A classifier for a root with the given lines in its ignore file, or without that file. -/
def forRoot (config : IgnoreConfig) (ignoreFile : Option (List String)) : Classifier :=
  match config.useGitignore, ignoreFile with
  | true, some lines => ⟨config, IgnoreRule.ignores (IgnoreRule.ofLines (lines ++ config.patterns))⟩
  | _, _ => new config

/-- A name of more than one character that starts with a dot. -/
def isHidden (name : String) : Bool :=
  name.length > 1 && hasPrefix "." name && name != ".."

def isIgnoredFile (config : IgnoreConfig) (name : String) : Bool :=
  config.ignoreFiles.any fun pattern =>
    if pattern.toList.any fun c => c == '*' || c == '?' || c == '[' then
      Wildcard.matchesName pattern name
    else
      pattern == name

/-- The first fault of the parts of a path: a hidden part, or an ignored directory before the last. -/
def partsReason? (config : IgnoreConfig) : List String → Option SkipReason
  | [] => none
  | [name] => if isHidden name then some .hidden else none
  | name :: rest =>
      if isHidden name then some .hidden
      else if config.ignoreDirs.contains name then some .ignoredDirectory
      else partsReason? config rest

/-- Why a path relative to the root is left out of the index, if it is. -/
def skipReason? (c : Classifier) (path : String) : Option SkipReason :=
  match partsReason? c.config (Path.parts path) with
  | some reason => some reason
  | none =>
      if isIgnoredFile c.config (Path.lastPart path) then some .ignoredFile
      else if (detectFileType path).isBinaryLike then some .binaryExtension
      else if c.ignores path then some .gitignore
      else none

def skipsDir (c : Classifier) (path : String) : Bool :=
  if path == "." || path == "" then false
  else
    let name := Path.lastPart path
    isHidden name || c.config.ignoreDirs.contains name || c.ignores (path ++ "/")

end Classifier

end CodeAtlas
