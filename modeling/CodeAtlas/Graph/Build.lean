import CodeAtlas.Graph.Basic
import CodeAtlas.Model.Symbol
import CodeAtlas.Text.Blank

/-!
What the text around a name tells: identifiers, the header of a declaration, and words that branch or
repeat.
-/

namespace CodeAtlas

def plainWords (text : String) : List String :=
  ((splitOn (fun c => !isWordChar c) text.toList).filter (!·.isEmpty)).map String.ofList

/-- The identifiers of a text: such runs without the digits in front. -/
def identifiers (text : String) : List String :=
  ((plainWords text).map fun w => String.ofList (w.toList.dropWhile Char.isDigit)).filter (· != "")

def conditionalWords : List String := ["if", "elif", "switch", "case", "match"]

def loopWords : List String := ["for", "while", "loop", "foreach", "do"]

def isConditional (context : String) : Bool :=
  (plainWords context).any conditionalWords.contains || context.toList.contains '?'

def isLoop (context : String) : Bool :=
  (plainWords context).any loopWords.contains

/-- The text after the name of a symbol in its signature, up to an opening brace. -/
def Symbol.header (s : Symbol) : String :=
  match indexOf? s.name.toList s.signature.toList with
  | none => ""
  | some i =>
      let rest := s.signature.toList.drop (i + s.name.length)
      String.ofList (rest.takeWhile (· != '{'))

def hasInheritanceMarker (header : String) : Bool :=
  containsText "extends" header || containsText "implements" header ||
    header.toList.any fun c => c == ':' || c == '('

/-- Words of headers that never name a base type. -/
def declarationWords : List String :=
  ["extends", "implements", "public", "private", "protected", "virtual", "class", "struct",
    "interface", "object", "final", "abstract", "static", "const", "mut", "pub", "where",
    "metaclass"]

def Symbol.baseNames (s : Symbol) : List String :=
  if hasInheritanceMarker s.header then
    (identifiers s.header).filter fun w => !declarationWords.contains w
  else []

end CodeAtlas

/-!
The graph of some files.  First every symbol becomes a node; then the usages of each file become edges
from the symbol around them, and declarations become edges to the types they name.
-/

namespace CodeAtlas

structure FileRecord where
  fileId : String
  projectId : String
  symbols : List Symbol
  references : List Reference
  usages : List Usage
  deriving DecidableEq, Repr, Inhabited

/-- The parts of a scope between double colons; the one being read comes back to front. -/
def scopeParts : List Char → List Char → List String
  | part, ':' :: ':' :: rest => String.ofList part.reverse :: scopeParts [] rest
  | part, c :: rest => scopeParts (c :: part) rest
  | part, [] => [String.ofList part.reverse]

namespace FileRecord

def fileOf (f : FileRecord) (s : Symbol) : String := if s.fileId == "" then f.fileId else s.fileId

def nodeOf (f : FileRecord) (s : Symbol) : Node where
  symbolId := s.id
  fileId := f.fileOf s
  projectId := f.projectId
  name := s.name
  kind := s.kind
  fullName := s.qualifiedName
  scope := if s.scope == "" then [] else scopeParts [] s.scope.toList
  location := ⟨f.fileOf s, s.first, s.last⟩
  figures := ⟨1, 0, 0, 0, 0, s.tags⟩
end FileRecord

namespace Build

/-- How much a kind is wanted as the meaning of a called name; zero refuses it. -/
def callRank (kind : SymbolKind) : Nat :=
  if kind.isCallable then 2 else if kind.isTypeLike then 1 else 0

def anyRank (_ : SymbolKind) : Nat := 1

def isData : SymbolKind → Bool
  | .var | .field | .const => true
  | _ => false

def dataRank (kind : SymbolKind) : Nat := if isData kind then 1 else 0

def typeRank (kind : SymbolKind) : Nat := if kind.isTypeLike then 1 else 0

def best? (rank : SymbolKind → Nat) (candidates : List Symbol) : Option Symbol :=
  (candidates.foldl (fun (found, top) s =>
    if rank s.kind > top then (some s, rank s.kind) else (found, top))
    ((none, 0) : Option Symbol × Nat)).1

def symbolsOfFile (files : List FileRecord) (fileId : String) : List Symbol :=
  (files.filter (·.fileId == fileId)).flatMap (·.symbols)

def symbolsOfProject (files : List FileRecord) (projectId : String) : List Symbol :=
  (files.filter (·.projectId == projectId)).flatMap (·.symbols)

/-- The symbol that a name means in a file: one of the file, or else one of the project. -/
def resolve? (files : List FileRecord) (f : FileRecord) (name : String)
    (rank : SymbolKind → Nat) : Option Symbol :=
  best? rank ((symbolsOfFile files f.fileId).filter (·.name == name)) <|>
    best? rank ((symbolsOfProject files f.projectId).filter (·.name == name))

/-- The innermost symbol around a place; only callable ones count if `callableOnly`. -/
def enclosing? (symbols : List Symbol) (place : Position) (callableOnly : Bool) : Option Symbol :=
  symbols.foldl (fun inner s =>
    if (!callableOnly || s.kind.isCallable) && s.contains place then
      match inner with
      | none => some s
      | some i => if i.contains s.first then some s else inner
    else inner) none

def sourceOf? (f : FileRecord) (u : Usage) : Option Symbol :=
  if u.kind == .importing then none
  else enclosing? f.symbols u.location.first (u.kind == .call)

def strengthOf : EdgeKind → Rat
  | .instantiates => mkRat 8 10
  | .modifies => mkRat 7 10
  | .uses => mkRat 5 10
  | .references => mkRat 3 10
  | _ => 1

/-- The kind of the edge that a usage makes to the symbol it means, and how it accesses it. -/
def usageLink? (files : List FileRecord) (f : FileRecord) (u : Usage) :
    Option (EdgeKind × Access × Symbol) :=
  match u.kind with
  | .call => do
      let target ← resolve? files f u.name callRank
      some (if target.kind.isTypeLike then .instantiates else .calls, .execute, target)
  | .reference => do
      let target ← resolve? files f u.name anyRank
      some (if target.kind.isCallable then .references else .uses, .read, target)
  | .assignment => do
      let target ← resolve? files f u.name dataRank
      some (.modifies, .write, target)
  | _ => none

def ofUsage? (files : List FileRecord) (f : FileRecord) (u : Usage) : Option Link := do
  let source ← sourceOf? f u
  let (kind, access, target) ← usageLink? files f u
  let location := if u.location.fileId == "" then { u.location with fileId := f.fileId } else u.location
  some ⟨source.id, target.id, kind, strengthOf kind, some location,
    ⟨0, isConditional u.context, isLoop u.context, access⟩⟩

/-- The line on which a usage makes its callable symbol branch. -/
def branch? (f : FileRecord) (u : Usage) : Option (String × Int) := do
  let source ← sourceOf? f u
  if source.kind.isCallable && (isConditional u.context || isLoop u.context) then
    some (source.id, u.location.first.line)
  else none

def branches (f : FileRecord) : List (String × Int) :=
  (f.usages.filterMap (branch? f)).eraseDups

def addBranches (g : SymbolGraph) (branches : List (String × Int)) : SymbolGraph :=
  { g with nodes := g.nodes.map fun n =>
      { n with figures := { n.figures with
        complexity := n.figures.complexity + (branches.countP (·.1 == n.symbolId) : Nat) } } }

def inheritanceLink (f : FileRecord) (s target : Symbol) : Link :=
  let kind : EdgeKind :=
    if target.kind == .interface && s.kind != .interface then .implements else .inherits
  ⟨s.id, target.id, kind, strengthOf kind, some ⟨f.fileId, s.first, s.first⟩, ⟨0, false, false, .read⟩⟩

/-- The first type of a file with a name that is not the symbol itself. -/
def typeNamed? (files : List FileRecord) (f : FileRecord) (s : Symbol) (name : String) :
    Option Symbol :=
  (symbolsOfFile files f.fileId).find? fun t => t.name == name && t.id != s.id && t.kind.isTypeLike

def namedBases (files : List FileRecord) (f : FileRecord) (s : Symbol) : List Link :=
  (s.baseNames.filterMap (typeNamed? files f s)).map (inheritanceLink f s)

def hasInheritance (g : SymbolGraph) (source target : String) : Bool :=
  g.edges.any fun e => e.source == source && e.target == target &&
    (e.kind == .inherits || e.kind == .implements)

/-- Links a class or interface to the types of its file that its header mentions, unless they are
linked already. -/
def addMentionedBases (f : FileRecord) (s : Symbol) (g : SymbolGraph) : SymbolGraph :=
  if s.header == "" then g
  else f.symbols.foldl (fun g other =>
    if other.id == s.id || !other.kind.isTypeLike || hasInheritance g s.id other.id then g
    else if (identifiers s.header).contains other.name && hasInheritanceMarker s.header then
      (g.addLink (inheritanceLink f s other)).1
    else g) g

def typeUses (files : List FileRecord) (f : FileRecord) (s : Symbol) : List Link :=
  (((identifiers s.header).filter (· != s.name)).eraseDups.filterMap
    (resolve? files f · typeRank)).map fun target =>
    ⟨s.id, target.id, .uses, strengthOf .uses, some ⟨f.fileId, s.first, s.last⟩,
      ⟨0, false, false, .read⟩⟩

/-- The name of the type that a scope puts its symbol in: what follows the first of the last two
colons in a row. -/
def ownerName (scope : String) : String :=
  let rec search : List Char → List Char → List Char
    | found, [] => found
    | found, c :: rest => search (if c == ':' && rest.head? == some ':' then rest else found) rest
  String.ofList (search scope.toList scope.toList)

def containment? (files : List FileRecord) (f : FileRecord) (s : Symbol) : Option Link :=
  if s.scope == "" then none
  else (typeNamed? files f s (ownerName s.scope)).map fun owner =>
    ⟨owner.id, s.id, .contains, strengthOf .contains, some ⟨f.fileId, s.first, s.last⟩,
      ⟨0, false, false, .unknown⟩⟩

def addLinks (g : SymbolGraph) (links : List Link) : SymbolGraph :=
  links.foldl (fun g l => (g.addLink l).1) g

def addDeclaration (files : List FileRecord) (f : FileRecord) (g : SymbolGraph) (s : Symbol) :
    SymbolGraph :=
  let g := match s.kind with
    | .classDecl | .struct => addLinks g (namedBases files f s)
    | .var | .field | .const => addLinks g (typeUses files f s)
    | _ => g
  let g := match s.kind with
    | .classDecl | .interface => addMentionedBases f s g
    | _ => g
  addLinks g (containment? files f s).toList

/-- Counts the references to symbols that are no nodes. -/
def countDangling (g : SymbolGraph) (references : List Reference) : SymbolGraph :=
  { g with dropped := g.dropped + references.countP fun r => !g.hasNode r.symbolId }

def addFile (files : List FileRecord) (g : SymbolGraph) (f : FileRecord) : SymbolGraph :=
  let g := addBranches (addLinks g (f.usages.filterMap (ofUsage? files f))) (branches f)
  countDangling (f.symbols.foldl (addDeclaration files f) g) f.references

def addNodes (files : List FileRecord) (g : SymbolGraph) : SymbolGraph :=
  files.foldl (fun g f => f.symbols.foldl (fun g s => g.addNode (f.nodeOf s)) g) g

end Build

def SymbolGraph.build (files : List FileRecord) : SymbolGraph :=
  (files.foldl (Build.addFile files) (Build.addNodes files .empty)).computeFigures

end CodeAtlas
