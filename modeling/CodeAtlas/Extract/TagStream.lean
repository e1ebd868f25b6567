import CodeAtlas.Number
import CodeAtlas.Extract.Basic
import CodeAtlas.Json.Reader
import CodeAtlas.Model.Language

/-!
Symbols reported by an external tag tool, one JSON object per line.
-/

namespace CodeAtlas

/-- One line of the report of a tag tool. -/
structure Tag where
  type : String
  name : String
  kind : String
  line : Int
  stop : Int
  scope : String
  signature : String
  roles : String
  deriving DecidableEq, Repr, Inhabited

namespace Tag

def blank : Tag := ⟨"", "", "", 0, 0, "", "", ""⟩

/-- An integer of 64 bits, written without point and exponent. -/
def intValue? (literal : String) : Option Int :=
  match literal.toInt? with
  | some n => if isSigned64 n then some n else none
  | none => none

/-- Two keys that differ by case alone name the same member. -/
def sameKey (key name : String) : Bool :=
  key.toList.map caseKey == name.toList.map caseKey

/-- The text of a member; a null leaves the old one. -/
def textValue? (old : String) : Json → Option String
  | .string s => some s
  | .null => some old
  | _ => none

def numberValue? (old : Int) : Json → Option Int
  | .number literal => intValue? literal
  | .null => some old
  | _ => none

/-- Takes over one member of the object; a value of the wrong type spoils the line. -/
def withMember? (tag : Tag) (key : String) (value : Json) : Option Tag :=
  if sameKey key "_type" then (textValue? tag.type value).map fun v => { tag with type := v }
  else if sameKey key "name" then (textValue? tag.name value).map fun v => { tag with name := v }
  else if sameKey key "kind" then (textValue? tag.kind value).map fun v => { tag with kind := v }
  else if sameKey key "line" then (numberValue? tag.line value).map fun v => { tag with line := v }
  else if sameKey key "end" then (numberValue? tag.stop value).map fun v => { tag with stop := v }
  else if sameKey key "scope" then (textValue? tag.scope value).map fun v => { tag with scope := v }
  else if sameKey key "signature" then
    (textValue? tag.signature value).map fun v => { tag with signature := v }
  else if sameKey key "roles" then (textValue? tag.roles value).map fun v => { tag with roles := v }
  else some tag

def ofJson? : Json → Option Tag
  | .object members =>
      members.foldl (fun tag m => tag.bind fun t => t.withMember? m.1 m.2) (some blank)
  | _ => none

def isDefinition (tag : Tag) : Bool :=
  tag.type == "tag" && tag.name != "" && 0 < tag.line &&
    (tag.roles == "" || containsText "def" tag.roles)

/-- What the tool calls a kind; a name it does not know stands for a variable. -/
def symbolKind (name : String) : SymbolKind :=
  match name with
  | "function" | "func" | "procedure" | "subroutine" => .function
  | "method" | "constructor" | "destructor" => .method
  | "class" => .classDecl
  | "interface" | "trait" => .interface
  | "struct" | "union" => .struct
  | "enum" | "enumeration" => .enum
  | "field" | "member" | "property" | "attribute" => .field
  | "enumerator" | "constant" | "const" => .const
  | "macro" | "define" => .macroDecl
  | "parameter" => .param
  | "namespace" => .nameSpace
  | "module" | "package" => .moduleDecl
  | "typedef" | "type" | "alias" => .typeDecl
  | _ => .var

/-- The byte at which a name first occurs in a line, or the first byte. -/
def columnIn (line : List Glyph) (name : String) : Nat :=
  match indexOf? (glyphsOfText name) line with
  | some i => glyphBytes (line.take i)
  | none => 0

def toSymbol (lines : Array (List Glyph)) (tag : Tag) : Symbol :=
  let line := lines[(tag.line - 1).toNat]?.getD []
  { id := "", fileId := "", name := tag.name, kind := symbolKind tag.kind
    first := ⟨tag.line, columnIn line tag.name⟩, last := ⟨max tag.stop tag.line, 0⟩
    signature := collapseSignature (textOfGlyphs line), scope := replaceText "." "::" tag.scope
    space := "", tags := [] }

def maxLineLength : Nat := 1024 * 1024 - 1

def dropReturn (line : List UInt8) : List UInt8 :=
  if line.getLast? == some 13 then line.dropLast else line

/-- The parts of a report between line feeds.  A last one without an end counts unless it is empty. -/
def rawLines (report : List UInt8) : List (List UInt8) :=
  let all := splitOn (· == 10) report
  if all.getLast? == some [] then all.dropLast else all

/-- The lines of a report, up to the first one that is too long. -/
def reportLines (report : List UInt8) : List (List UInt8) :=
  ((rawLines report).takeWhile fun l => l.length ≤ maxLineLength).map dropReturn

/-- The tag that a line reports, if it is a definition. -/
def ofLine? (line : List UInt8) : Option Tag :=
  ((Json.parse? (textOfGlyphs (glyphsOfBytes line))).bind ofJson?).filter isDefinition

def symbolsOfBytes (report : List UInt8) (lines : Array (List Glyph)) : List Symbol :=
  ((reportLines report).filterMap ofLine?).map (toSymbol lines)

def symbolsOf (report : String) (lines : Array (List Glyph)) : List Symbol :=
  symbolsOfBytes (bytesOfText report) lines

end Tag

def tagLanguage? (language : Language) : Option String :=
  match language.name with
  | "rust" => some "Rust"
  | "javascript" => some "JavaScript"
  | "typescript" | "tsx" => some "TypeScript"
  | "python" => some "Python"
  | "java" => some "Java"
  | "c" => some "C"
  | "cpp" => some "C++"
  | "go" => some "Go"
  | "html" => some "HTML"
  | "css" => some "CSS"
  | "json" => some "JSON"
  | "xml" => some "XML"
  | "yaml" => some "Yaml"
  | "markdown" => some "Markdown"
  | "shell" => some "Sh"
  | "sql" => some "SQL"
  | "dockerfile" => some "Dockerfile"
  | "makefile" => some "Make"
  | "cmake" => some "CMake"
  | _ => none

/-- How an installed tag tool answers: its version, its languages, and its report on a content in a
language; nothing where it fails. -/
structure TagTool where
  version : Option String
  languages : Option String
  report : Language → List UInt8 → Option String
  deriving Inhabited

namespace TagTool

/-- The languages that the tool has enabled.  Only one family of tools writes reports that can be
read. -/
def enabled (tool : TagTool) : List String :=
  match tool.version, tool.languages with
  | some version, some languages =>
      if containsText "Universal Ctags" version then
        ((splitText '\n' languages).map trim).filter fun l =>
          l != "" && !hasSuffix "[disabled]" l
      else
        []
  | _, _ => []

def supports (tool : TagTool) (language : Language) : Bool :=
  (tagLanguage? language).any tool.enabled.contains

end TagTool

end CodeAtlas
