import CodeAtlas.Model.Kind

/-!
Places in source texts, the symbols declared there, and the occurrences of their names.
-/

namespace CodeAtlas

/-- A place in a text: lines count from one, columns are bytes from the start of the line. -/
structure Position where
  line : Int
  column : Int
  deriving DecidableEq, Repr, Inhabited

def Position.before (p q : Position) : Bool :=
  if p.line ≠ q.line then p.line < q.line else p.column < q.column

/-- A stretch of the text of one file. -/
structure Location where
  fileId : String
  first : Position
  last : Position
  deriving DecidableEq, Repr, Inhabited

/-- A named declaration and the stretch of text it covers. -/
structure Symbol where
  id : String
  fileId : String
  name : String
  kind : SymbolKind
  first : Position
  last : Position
  signature : String
  scope : String
  space : String
  tags : List String
  deriving DecidableEq, Repr, Inhabited

inductive SymbolFault where
  | noName
  | unknownKind (name : String)
  | lineNotPositive
  | endsBeforeStart
  deriving DecidableEq, Repr

def SymbolFault.message : SymbolFault → String
  | noName => "symbol name is required"
  | unknownKind name => "unknown symbol kind " ++ quoted name
  | lineNotPositive => "invalid position: line numbers must be positive"
  | endsBeforeStart => "invalid position: start line must be before or equal to end line"

namespace Symbol

/-- Whether a place falls inside the stretch of the symbol, ends included. -/
def contains (s : Symbol) (p : Position) : Bool :=
  !p.before s.first && !s.last.before p

def qualifiedName (s : Symbol) : String :=
  if s.scope == "" then s.name else s.scope ++ "::" ++ s.name

def fault? (s : Symbol) : Option SymbolFault :=
  if s.name == "" then some .noName
  else if !s.kind.isKnown then some (.unknownKind s.kind.name)
  else if s.first.line ≤ 0 || s.last.line ≤ 0 then some .lineNotPositive
  else if s.last.line < s.first.line then some .endsBeforeStart
  else none

end Symbol

/-- A located use of a symbol. -/
structure Reference where
  id : String
  symbolId : String
  fileId : String
  location : Location
  kind : ReferenceKind
  context : String
  deriving DecidableEq, Repr, Inhabited

/-- An occurrence of a name that no symbol has been found for yet. -/
structure Usage where
  name : String
  location : Location
  kind : UsageKind
  context : String
  deriving DecidableEq, Repr, Inhabited

structure FileSymbols where
  symbols : List Symbol
  references : List Reference
  usages : List Usage
  deriving DecidableEq, Repr, Inhabited

def FileSymbols.symbolNamed? (found : FileSymbols) (name : String) : Option Symbol :=
  found.symbols.find? (·.name == name)

end CodeAtlas
