import CodeAtlas.Model.Symbol
import CodeAtlas.Model.Tag
import CodeAtlas.Text.Blank
import CodeAtlas.Text.Glyph
import CodeAtlas.Text.Signature
import CodeAtlas.Uuid

/-!
What a strategy finds in a text, and the lines of a text.
-/

namespace CodeAtlas

/-- Symbols without identifiers and the occurrences of names outside definitions. -/
structure Extraction where
  symbols : List Symbol
  usages : List Usage
  deriving DecidableEq, Repr, Inhabited

/-- Drops the carriage return before every line feed. -/
def joinLineEnds (glyphs : List Glyph) : List Glyph :=
  let step (done : Array Glyph) (g : Glyph) : Array Glyph :=
    if g.char == '\n' && done.back?.any (fun last => last.char == '\r') then done.pop.push g
    else done.push g
  (glyphs.foldl step #[]).toList

def glyphLines (glyphs : List Glyph) : List (List Glyph) :=
  splitOn (fun g => g.char == '\n') (joinLineEnds glyphs)

/-!
From what a strategy found to the symbols and references of a file: identifiers, tags, and the usages
that name a symbol of the same file.
-/

/-- The space of names for a file: its identifier if that is one of sixteen bytes, else one derived from
it. -/
def fileSpace (fileId : String) : Uuid :=
  (Uuid.parse? fileId).getD (Uuid.ofName Uuid.objectSpace fileId)

def symbolKey (s : Symbol) : String :=
  "sym:" ++ s.kind.name ++ ":" ++ s.name ++ ":" ++ toString s.first.line ++ ":" ++
    toString s.first.column

def referenceKey (symbolId : String) (place : Position) : String :=
  "ref:" ++ symbolId ++ ":" ++ toString place.line ++ ":" ++ toString place.column

def finishSymbol (space : Uuid) (fileId : String) (s : Symbol) : Symbol :=
  { s with
    fileId := fileId
    id := (Uuid.ofName space (symbolKey s)).toString
    tags := s.conventionTags }

def finishUsage (fileId : String) (u : Usage) : Usage :=
  { u with location := { u.location with fileId := fileId } }

/-- Takes in the name of a symbol and its place, unless an earlier symbol has the name. -/
def indexName (index : List (String × Nat)) (entry : Symbol × Nat) : List (String × Nat) :=
  if (index.lookup entry.1.name).isSome then index else (entry.1.name, entry.2) :: index

/-- The names of symbols, each with the place of the symbol that first has it. -/
def nameIndex (symbols : List Symbol) : List (String × Nat) := symbols.zipIdx.foldl indexName []

def referenceTo (space : Uuid) (fileId : String) (u : Usage) (target : Symbol) : Reference where
  id := (Uuid.ofName space (referenceKey target.id u.location.first)).toString
  symbolId := target.id
  fileId := fileId
  location := { u.location with fileId := fileId }
  kind := .usage
  context := u.context

/-- The reference of a usage to the symbol that the index has for its name. -/
def resolveUsage? (space : Uuid) (fileId : String) (symbols : List Symbol) (index : List (String × Nat))
    (u : Usage) : Option Reference :=
  ((index.lookup u.name).bind (symbols[·]?)).map (referenceTo space fileId u)

def Extraction.finish (e : Extraction) (fileId : String) : FileSymbols :=
  let space := fileSpace fileId
  let symbols := e.symbols.map (finishSymbol space fileId)
  { symbols := symbols
    references := e.usages.filterMap (resolveUsage? space fileId symbols (nameIndex symbols))
    usages := e.usages.map (finishUsage fileId) }

end CodeAtlas
