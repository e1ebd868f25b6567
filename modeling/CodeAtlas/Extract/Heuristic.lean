import CodeAtlas.Extract.Basic
import CodeAtlas.Model.Language
import CodeAtlas.Pattern.Basic

/-!
Declarations recognised line by line.  A line pattern is what stands before a name and what stands after
it; the first pattern that matches a line gives its symbol.
-/

namespace CodeAtlas

/-- A form of declaration: from the start of the line, `lead`, then the name, then `tail`. -/
structure LinePattern where
  lead : Pattern
  tail : Pattern
  kind : SymbolKind
  deriving Inhabited

/-- A name found in a line: the byte at which it starts, and its characters. -/
structure NameMatch where
  column : Nat
  name : String
  deriving DecidableEq, Repr

namespace LinePattern

/-- The longest name at a place that leaves the tail a match, among those of at most `length`
characters; `ends` are the places after each length, the longest first. -/
def nameAt? (tail : Pattern) (start : Cursor) (ends : List Cursor) : Option NameMatch :=
  ends.findSome? fun stop =>
    if start.index < stop.index && !(tail.ends stop).isEmpty then
      some ⟨start.offset, textOfGlyphs (start.rest.take (stop.index - start.index))⟩
    else
      none

def find? (p : LinePattern) (line : List Glyph) : Option NameMatch :=
  (p.lead.ends (.start line)).findSome? fun start =>
    nameAt? p.tail start (Cursor.reach .word start.rest start [])

end LinePattern

namespace Heuristic

open Pattern

def leading (kind : SymbolKind) (lead : List Pattern) : LinePattern := ⟨chain lead, empty, kind⟩

def framed (kind : SymbolKind) (lead tail : List Pattern) : LinePattern := ⟨chain lead, chain tail, kind⟩

def optionalWord (s : String) : Pattern := optional (wordGap s)

def anyWords (names : List String) : Pattern :=
  rounds (seq (oneOf (names.map text)) gap)

/-- Visibility in Rust: `pub`, possibly with a restriction in parentheses. -/
def visibility : Pattern :=
  optional (chain [text "pub",
    optional (chain [text "(", many (.exceptChars ")"), text ")"]), gap])

def rust : List LinePattern := [
  leading .function [blanks, visibility, optionalWord "const", optionalWord "async",
    optionalWord "unsafe",
    optional (chain [wordGap "extern", text "\"", many (.exceptChars "\""), text "\"", gap]),
    wordGap "fn"],
  leading .struct [blanks, visibility, wordGap "struct"],
  leading .enum [blanks, visibility, wordGap "enum"],
  leading .interface [blanks, visibility, optionalWord "unsafe", wordGap "trait"],
  framed .const [blanks, visibility, wordGap "const"] [blanks, text ":"],
  framed .var [blanks, visibility, wordGap "static", optionalWord "mut"] [blanks, text ":"],
  leading .moduleDecl [blanks, visibility, wordGap "mod"],
  leading .typeDecl [blanks, visibility, wordGap "type"],
  leading .macroDecl [blanks, text "macro_rules!", blanks]]

def exported : Pattern := optionalWord "export"

def typedValue : List Pattern :=
  [blanks, optional (seq (text ":") (many1 (.exceptChars "="))), text "="]

def javascript : List LinePattern := [
  leading .function [blanks, exported, optionalWord "default", optionalWord "async",
    text "function", blanks, optional (text "*"), blanks],
  leading .classDecl [blanks, exported, optionalWord "default", optionalWord "abstract",
    wordGap "class"],
  leading .interface [blanks, exported, wordGap "interface"],
  leading .enum [blanks, exported, optionalWord "const", wordGap "enum"],
  framed .typeDecl [blanks, exported, wordGap "type"]
    [blanks, optional (chain [text "<", many (.exceptChars ">"), text ">"]), blanks, text "="],
  framed .const [blanks, exported, wordGap "const"] typedValue,
  framed .var [blanks, exported, wordGap "let"] typedValue,
  framed .var [blanks, exported, wordGap "var"] typedValue]

def python : List LinePattern := [
  leading .function [blanks, optionalWord "async", wordGap "def"],
  leading .classDecl [blanks, wordGap "class"],
  framed .var [] (typedValue ++ [char (.exceptChars "=")])]

def java : List LinePattern := [
  leading .classDecl [blanks,
    anyWords ["public", "private", "protected", "static", "final", "abstract", "sealed"],
    wordGap "class"],
  leading .interface [blanks, anyWords ["public", "private", "protected", "static", "sealed"],
    wordGap "interface"],
  leading .enum [blanks, anyWords ["public", "private", "protected", "static"], wordGap "enum"],
  framed .method [blanks, oneOf [text "public", text "private", text "protected"], gap,
    anyWords ["static", "final", "abstract", "synchronized"],
    char typeChar, repeatSet false typeChar, gap] [blanks, text "("]]
where
  typeChar : CharSet :=
    .oneOf [.word, .blank, .ofChars "<>[],.?"]

def c : List LinePattern := [
  leading .macroDecl [blanks, text "#", blanks, wordGap "define"],
  framed .struct [blanks, optionalWord "typedef", wordGap "struct"]
    [blanks, optional (text "\x7b"), blanks, textEnd],
  leading .enum [blanks, optionalWord "typedef", wordGap "enum"],
  framed .typeDecl [blanks, wordGap "typedef", repeatSet false .exceptLineEnd, boundary true]
    [blanks, text ";"],
  framed .function [blanks,
    anyWords ["static", "inline", "extern", "const", "unsigned", "signed"],
    char (.oneOf [.span 'A' 'Z', .span 'a' 'z', .single '_']),
    many (.union .word (.ofChars ":<>")),
    many1 (.union .blank (.ofChars "*&"))]
    [blanks, text "(", many (.exceptChars ";"), text ")", blanks,
      optional (seq (text "const") blanks), text "\x7b"]]

def cpp : List LinePattern := [
  leading .classDecl [blanks,
    optional (chain [text "template", blanks, text "<", many (.exceptChars ">"), text ">", blanks]),
    wordGap "class"],
  leading .nameSpace [blanks, wordGap "namespace"]] ++ c

def go : List LinePattern := [
  leading .method [wordGap "func", text "(", many (.exceptChars ")"), text ")", blanks],
  leading .function [wordGap "func"],
  framed .struct [wordGap "type"] [gap, text "struct", boundary true],
  framed .interface [wordGap "type"] [gap, text "interface", boundary true],
  leading .typeDecl [wordGap "type"],
  leading .const [wordGap "const"],
  leading .var [wordGap "var"]]

/-- Patterns for any language, tried when no other pattern matches. -/
def general : List LinePattern := [
  leading .function [blanks, exported, optionalWord "async", wordGap "function"],
  leading .classDecl [blanks, rounds (seq (many1 .word) gap), wordGap "class"],
  leading .function [blanks, optionalWord "async", wordGap "def"],
  leading .function [blanks, optionalWord "pub", wordGap "fn"],
  leading .function [blanks, wordGap "func"],
  framed .function [blanks] [blanks, text "()", blanks, text "\x7b"]]

def patternsFor (language : Language) : List LinePattern :=
  match language.name with
  | "rust" => rust
  | "javascript" | "typescript" | "tsx" => javascript
  | "python" => python
  | "java" => java
  | "c" => c
  | "cpp" => cpp
  | "go" => go
  | _ => []

def symbolIn? (patterns : List LinePattern) (row : Nat) (line : List Glyph) : Option Symbol :=
  patterns.findSome? fun p =>
    (p.find? line).map fun found =>
      { id := "", fileId := "", name := found.name, kind := p.kind
        first := ⟨row + 1, found.column⟩, last := ⟨row + 1, glyphBytes line⟩
        signature := collapseSignature (textOfGlyphs line), scope := "", space := "", tags := [] }

/-- The symbol of a line: by the patterns of the language, else by the general ones. -/
def lineSymbol? (patterns : List LinePattern) (row : Nat) (line : List Glyph) : Option Symbol :=
  (symbolIn? patterns row line).or (symbolIn? general row line)

/-- At most one symbol per line; never a usage. -/
def extract (language : Language) (glyphs : List Glyph) : Extraction :=
  let patterns := patternsFor language
  ⟨(glyphLines glyphs).zipIdx.filterMap fun (line, row) => lineSymbol? patterns row line, []⟩

end Heuristic

end CodeAtlas
