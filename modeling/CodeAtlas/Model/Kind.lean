import CodeAtlas.Text.Quoted

/-!
What a symbol, a reference or an occurrence of a name is.  Kinds arrive as texts; a text that names no
kind is kept as it is, so that it can be reported.
-/

namespace CodeAtlas

inductive SymbolKind where
  | function
  | method
  | classDecl
  | interface
  | struct
  | enum
  | var
  | const
  | field
  | param
  | moduleDecl
  | nameSpace
  | macroDecl
  | typeDecl
  | other (name : String)
  deriving DecidableEq, Repr, Inhabited

namespace SymbolKind

def all : List SymbolKind :=
  [function, method, classDecl, interface, struct, enum, var, const, field, param, moduleDecl,
    nameSpace, macroDecl, typeDecl]

def name : SymbolKind → String
  | function => "function"
  | method => "method"
  | classDecl => "class"
  | interface => "interface"
  | struct => "struct"
  | enum => "enum"
  | var => "variable"
  | const => "constant"
  | field => "field"
  | param => "parameter"
  | moduleDecl => "module"
  | nameSpace => "namespace"
  | macroDecl => "macro"
  | typeDecl => "type"
  | other name => name

def ofName (name : String) : SymbolKind :=
  (all.find? (·.name == name)).getD (other name)

def parse (name : String) : Except String SymbolKind :=
  match all.find? (·.name == name) with
  | some kind => .ok kind
  | none => .error ("unknown symbol kind " ++ quoted name)

def isKnown (kind : SymbolKind) : Bool :=
  all.contains kind

/-- Whether symbols of the kind have a body that can call others. -/
def isCallable (kind : SymbolKind) : Bool :=
  kind == function || kind == method

def isTypeLike : SymbolKind → Bool
  | classDecl | interface | struct | enum | typeDecl => true
  | _ => false

end SymbolKind

/-- How a stored reference relates to its symbol. -/
inductive ReferenceKind where
  | usage
  | definition
  | declaration
  | call
  | importing
  | inheritance
  | implementation
  | other (name : String)
  deriving DecidableEq, Repr, Inhabited

namespace ReferenceKind

def all : List ReferenceKind :=
  [usage, definition, declaration, call, importing, inheritance, implementation]

def name : ReferenceKind → String
  | usage => "usage"
  | definition => "definition"
  | declaration => "declaration"
  | call => "call"
  | importing => "import"
  | inheritance => "inheritance"
  | implementation => "implementation"
  | other name => name

def ofName (name : String) : ReferenceKind :=
  (all.find? (·.name == name)).getD (other name)

def parse (name : String) : Except String ReferenceKind :=
  match all.find? (·.name == name) with
  | some kind => .ok kind
  | none => .error ("unknown reference kind " ++ quoted name)

end ReferenceKind

/-- How a name occurs in a source text. -/
inductive UsageKind where
  | call
  | reference
  | assignment
  | importing
  | other (name : String)
  deriving DecidableEq, Repr, Inhabited

namespace UsageKind

def name : UsageKind → String
  | call => "call"
  | reference => "reference"
  | assignment => "assignment"
  | importing => "import"
  | other name => name

def ofName (name : String) : UsageKind :=
  ([call, reference, assignment, importing].find? (·.name == name)).getD (other name)

end UsageKind

end CodeAtlas
